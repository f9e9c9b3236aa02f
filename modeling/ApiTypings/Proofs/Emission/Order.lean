import ApiTypings.Emission.Hierarchy
import ApiTypings.Proofs.Ancestry.Lineage
import ApiTypings.Rules.Builtin

/-!
# The order of classes

Every class of a hierarchy looks up others: its ancestors are found by their names, and what it
inherits from them is left out. All of this goes through `Hierarchy.find?`, which takes the first
class of a name (**`flatten_congr`**). If no two classes have one name, there is no other to take,
so that the place of a class in the list cannot be seen (`find?_eq_of_perm`).

**`emit_of_perm`** — in another order the same classes become the same interfaces with the same
reports, class by class (`block`), and only the order of these blocks is that of the classes.
-/

namespace ApiTypings

namespace Hierarchy

variable {h h' : Hierarchy}

/-! ### Looking up classes -/

/-- With distinct names, a class is found under its name and under no other. -/
theorem find?_eq_some_iff_of_distinct (hd : h.Distinct) {name : String} {c : ClassDoc} :
    h.find? name = some c ↔ c ∈ h.classes ∧ c.name = name := by
  constructor
  · intro hf
    exact ⟨mem_of_find? hf, name_of_find? hf⟩
  · rintro ⟨hc, rfl⟩
    exact find?_name_of_mem hd hc

theorem Distinct.of_perm (hd : h.Distinct) (hp : h.classes.Perm h'.classes) : h'.Distinct :=
  (hp.map ClassDoc.name).nodup_iff.1 hd

/-- With distinct names, the order of the classes cannot be seen in what is found. -/
theorem find?_eq_of_perm (hd : h.Distinct) (hp : h.classes.Perm h'.classes) (name : String) :
    h.find? name = h'.find? name := by
  refine Option.ext fun c => ?_
  rw [find?_eq_some_iff_of_distinct hd, find?_eq_some_iff_of_distinct (hd.of_perm hp), hp.mem_iff]

/-! ### What is found decides everything -/

/-- A walk sees of a hierarchy only what is found in it. -/
theorem walk_congr (hf : ∀ name, h.find? name = h'.find? name) (met : List String)
    (p : Option String) : h.walk met p = h'.walk met p := by
  induction met, p using walk.induct h with
  | case1 met => rw [walk_none, walk_none]
  | case2 met name hm => rw [walk_of_mem h hm, walk_of_mem h' hm]
  | case3 met name hm hnone =>
    rw [walk_of_find?_eq_none h hm hnone, walk_of_find?_eq_none h' hm (hf name ▸ hnone)]
  | case4 met name hm c hsome _ ih =>
    rw [walk_of_find?_eq_some h hm hsome, walk_of_find?_eq_some h' hm (hf name ▸ hsome), ih]

/-- So does what is left of a class without what it inherits. -/
theorem flatten_congr (hf : ∀ name, h.find? name = h'.find? name) (c : ClassDoc) :
    h.flatten c = h'.flatten c := by
  have ha : h.ancestry c = h'.ancestry c := walk_congr hf [c.name] c.parentName?
  rw [flatten, flatten, flattenBy, flattenBy, ha]

/-! ### Blocks -/

/-- What one class of a hierarchy becomes: its interfaces, and what is reported along with
them. -/
def block (h : Hierarchy) (rules : RuleTable) (k : Context) (c : ClassDoc) :
    Reported (List Statement) :=
  ((h.flatten c).emit rules).run k

/-- A hierarchy becomes the blocks of its classes, one after another. -/
theorem run_emit (h : Hierarchy) (rules : RuleTable) (k : Context) :
    (h.emit rules).run k =
      ⟨h.classes.flatMap fun c => (h.block rules k c).value,
        h.classes.flatMap fun c => (h.block rules k c).diagnostics⟩ :=
  congrArg₂ Reported.mk (Checked.value_gather _ h.classes k)
    (Checked.diagnostics_gather _ h.classes k)

/-- **The order of classes only orders what they become.** With distinct names, every class has the
same block in another order of the classes, the whole is the blocks in the order of the classes, and
so no declaration and no report is lost, added or changed. -/
theorem emit_of_perm (hd : h.Distinct) (hp : h.classes.Perm h'.classes) (rules : RuleTable)
    (k : Context) :
    (∀ c ∈ h.classes, h.block rules k c = h'.block rules k c) ∧
    (h.emit rules).run k =
      ⟨h.classes.flatMap fun c => (h.block rules k c).value,
        h.classes.flatMap fun c => (h.block rules k c).diagnostics⟩ ∧
    (h'.emit rules).run k =
      ⟨h'.classes.flatMap fun c => (h.block rules k c).value,
        h'.classes.flatMap fun c => (h.block rules k c).diagnostics⟩ ∧
    ((h.emit rules).value k).Perm ((h'.emit rules).value k) ∧
    ((h.emit rules).diagnostics k).Perm ((h'.emit rules).diagnostics k) := by
  have hblock : h.block rules k = h'.block rules k := by
    funext c
    rw [block, block, flatten_congr (find?_eq_of_perm hd hp)]
  have hrun := h.run_emit rules k
  have hrun' := h'.run_emit rules k
  rw [← hblock] at hrun'
  refine ⟨fun c _ => congrFun hblock c, hrun, hrun', ?_, ?_⟩
  · rw [Checked.value, Checked.value, hrun, hrun']
    exact hp.flatMap_right _
  · rw [Checked.diagnostics, Checked.diagnostics, hrun, hrun']
    exact hp.flatMap_right _

/-- A class that inherits its one method, the class that it inherits it from, one whose parent is
not there, and two that are each other's parents. -/
def kin : Hierarchy where
  classes :=
    [{ name := "Child", parent := some "Base", methods := [{ name := "getName" }] },
      { name := "Base", methods := [{ name := "getName" }] },
      { name := "Stray", parent := some "Gone" }, { name := "Left", parent := some "Right" },
      { name := "Right", parent := some "Left" }]

theorem emit_of_perm_kin :
    let reversed : Hierarchy := ⟨kin.classes.reverse⟩
    kin.Distinct ∧ kin.classes.Perm reversed.classes ∧
      (∀ c ∈ kin.classes, kin.block .builtin {} c = reversed.block .builtin {} c) ∧
      ((kin.emit .builtin).value {}).Perm ((reversed.emit .builtin).value {}) ∧
      ((kin.emit .builtin).value {}).map (·.name) =
        ["Child", "Base", "Stray", "Left", "Right"] ∧
      ((reversed.emit .builtin).value {}).map (·.name) =
        ["Right", "Left", "Stray", "Base", "Child"] := by
  intro reversed
  have hd : kin.Distinct := by decide
  have hp : kin.classes.Perm reversed.classes := (List.reverse_perm kin.classes).symm
  obtain ⟨hblock, -, -, hvalue, -⟩ := emit_of_perm hd hp .builtin {}
  exact ⟨hd, hp, hblock, hvalue, by decide +kernel, by decide +kernel⟩

end Hierarchy

end ApiTypings
