import ApiTypings.Emission.Hierarchy
import ApiTypings.Proofs.Ancestry.Deduplication
import ApiTypings.Proofs.Ancestry.Lineage
import ApiTypings.Proofs.Emission.Made
import Mathlib.Logic.Function.Iterate

/-!
# Reports of broken links

The link from a class to its parent is broken if the parent is not documented, or if the links
lead back to the class. A walk from the class sees the first of this at once; the second it sees
only if it comes round to the class itself, and not to another class on the way.

* **`onCycle_iff_returns`** — a walk ends in a cycle at the class that it set out from exactly if
  that class's name is among the names that the links lead to (`Returns`), however many they are
  and whichever of several classes of one name they go through.
* **`link_diagnostics_emit`** — what is reported of links when a hierarchy becomes interfaces is
  just this, class by class (`linkReports`): one report of a class to which the links return, one
  of a class that names a parent that is not there, and nothing of the classes that lead to such
  a class.
-/

namespace ApiTypings

namespace Hierarchy

variable {h : Hierarchy} {c : ClassDoc} {p : String}

/-! ### Names that links lead to -/

/-- The name of the parent of the first class with a name, if there is such a class and it names
a parent. -/
def nextName? (h : Hierarchy) (name : String) : Option String :=
  (h.find? name).bind (·.parentName?)

/-- The name that so many links lead to from a name. -/
def leadsTo (h : Hierarchy) (p : Option String) (steps : Nat) : Option String :=
  (Option.bind · h.nextName?)^[steps] p

/-- The links from a class lead back to its name. -/
def Returns (h : Hierarchy) (c : ClassDoc) : Prop :=
  ∃ steps, h.leadsTo c.parentName? steps = some c.name

theorem leadsTo_succ (h : Hierarchy) (p : Option String) (steps : Nat) :
    h.leadsTo p (steps + 1) = (h.leadsTo p steps).bind h.nextName? := by
  rw [leadsTo, leadsTo, Function.iterate_succ_apply']

/-- A climb is made of as many links as classes. -/
theorem Climb.leadsTo_length {p q : Option String} {cs : List ClassDoc} (hc : Climb h p cs q) :
    h.leadsTo p cs.length = q := by
  induction hc with
  | stay p => rfl
  | step hf _ ih =>
    rw [List.length_cons, leadsTo, Function.iterate_succ_apply, Option.bind_some, nextName?, hf,
      Option.bind_some, ← leadsTo, ih]

/-- A climb sets out to the name of its first class, or it stays. -/
theorem Climb.mem_or_eq {p q : Option String} {cs : List ClassDoc} (hc : Climb h p cs q)
    {name : String} (hp : p = some name) : name ∈ cs.map (·.name) ∨ q = some name := by
  cases hc with
  | stay => exact .inr hp
  | step hf _ =>
    obtain rfl := Option.some.inj hp
    exact .inl (by simp [name_of_find? hf])

/-- From the name of a class of a climb, a link leads to the name of another one or to where the
climb ends. -/
theorem Climb.next_mem_or_eq {p q : Option String} {cs : List ClassDoc} (hc : Climb h p cs q)
    {name next : String} (hm : name ∈ cs.map (·.name)) (hn : h.nextName? name = some next) :
    next ∈ cs.map (·.name) ∨ q = some next := by
  obtain ⟨d, hd, rfl⟩ := List.mem_map.1 hm
  obtain ⟨pre, post, rfl⟩ := List.append_of_mem hd
  obtain ⟨-, hf, hpost⟩ := climb_middle_iff.1 hc
  rw [nextName?, hf, Option.bind_some] at hn
  exact (hpost.mem_or_eq hn).imp_left fun hm =>
    List.map_subset _ (by simp) hm

/-- **If a climb ends at a name of its classes or at one that leads nowhere, links lead to no
other names.** -/
theorem Climb.leadsTo_mem_or_eq {p q : Option String} {cs : List ClassDoc} (hc : Climb h p cs q)
    (hq : ∀ name, q = some name → name ∈ cs.map (·.name) ∨ h.nextName? name = none)
    {steps : Nat} {name : String} (hl : h.leadsTo p steps = some name) :
    name ∈ cs.map (·.name) ∨ q = some name := by
  induction steps generalizing name with
  | zero => exact hc.mem_or_eq hl
  | succ steps ih =>
    rw [leadsTo_succ] at hl
    obtain ⟨before, hb, hn⟩ := Option.bind_eq_some_iff.1 hl
    rcases ih hb with hm | he
    · exact hc.next_mem_or_eq hm hn
    · rcases hq before he with hm | hnone
      · exact hc.next_mem_or_eq hm hn
      · exact absurd (hnone.symm.trans hn) (Option.some_ne_none _).symm

/-- What a name leads to at which a walk ends: nothing, or it has been met. -/
theorem Ends.mem_or_nextName? {met : List String} {q : Option String} {stop : Stop}
    (he : Ends h met q stop) {name : String} (hq : q = some name) :
    name ∈ met ∧ stop = .cycle name ∨ name ∉ met ∧ h.nextName? name = none := by
  cases he with
  | root => cases hq
  | unresolved hm hf =>
    obtain rfl := Option.some.inj hq
    exact .inr ⟨hm, by rw [nextName?, hf, Option.bind_none]⟩
  | cycle hm =>
    obtain rfl := Option.some.inj hq
    exact .inl ⟨hm, rfl⟩

/-- **A walk comes back to its class exactly if the links lead back to the class's name.** -/
theorem onCycle_iff_returns : h.OnCycle c ↔ h.Returns c := by
  obtain ⟨hn, q, hc, he⟩ := climb_ancestry h c
  constructor
  · intro ho
    rw [OnCycle] at ho
    rw [ho] at he
    cases he
    exact ⟨_, hc.leadsTo_length⟩
  · rintro ⟨steps, hl⟩
    have hmet : c.name ∈ (h.ancestry c).chain.map (·.name) ++ [c.name] := by simp
    have hown : c.name ∉ (h.ancestry c).chain.map (·.name) := fun hm => by
      obtain ⟨d, hd, hdc⟩ := List.mem_map.1 hm
      exact hn.2 d hd (List.mem_singleton.2 hdc)
    by_cases hq : q = some c.name
    · rcases he.mem_or_nextName? hq with ⟨-, hs⟩ | ⟨hm, -⟩
      · exact hs
      · exact absurd hmet hm
    -- the walk ends somewhere else, so that the links never get to the class
    · have hend : ∀ name, q = some name →
          name ∈ (h.ancestry c).chain.map (·.name) ∨ h.nextName? name = none := by
        intro name hqn
        rcases he.mem_or_nextName? hqn with ⟨hm, -⟩ | ⟨-, hnone⟩
        · rcases List.mem_append.1 hm with hm | hm
          · exact .inl hm
          · exact absurd (List.mem_singleton.1 hm ▸ hqn) hq
        · exact .inr hnone
      rcases hc.leadsTo_mem_or_eq hend hl with hm | he
      · exact absurd hm hown
      · exact absurd he hq

instance (h : Hierarchy) (c : ClassDoc) : Decidable (h.Returns c) :=
  decidable_of_iff (h.OnCycle c) onCycle_iff_returns

/-- The name of the parent of a class, if that is another class and is not there. -/
def missing? (h : Hierarchy) (c : ClassDoc) : Option String :=
  c.parentName?.filter fun p => p ≠ c.name ∧ ∀ d ∈ h.classes, d.name ≠ p

/-- A walk ends at once, for want of a class, exactly if the class names another one that is not
there. -/
theorem ancestry_eq_unresolved_iff :
    h.ancestry c = ⟨[], .unresolved p⟩ ↔ h.missing? c = some p := by
  rw [ancestry, walk_eq_iff, missing?, Option.filter_eq_some_iff, decide_eq_true_eq,
    ← find?_eq_none_iff]
  constructor
  · rintro ⟨-, q, hc, he⟩
    cases he with
    | unresolved hm hf =>
      exact ⟨climb_nil_iff.1 hc, fun hpc => hm (by simp [hpc]), hf⟩
  · rintro ⟨hp, hpc, hf⟩
    exact ⟨fresh_nil _, some p, climb_nil_iff.2 hp, .unresolved (by simpa using hpc) hf⟩

theorem missing?_eq_none_of_onCycle (ho : h.OnCycle c) : h.missing? c = none := by
  refine Option.eq_none_iff_forall_ne_some.2 fun p hp => ?_
  rw [OnCycle, ancestry_eq_unresolved_iff.2 hp] at ho
  cases ho

/-! ### Reports -/

/-- The kinds of reports on links. -/
def linkKinds : List DiagnosticKind := [.unresolvedParent, .parentCycle]

/-- A report on the link of a class. -/
def linkReport (k : Context) (c : ClassDoc) (kind : DiagnosticKind) (detail : String) :
    Diagnostic :=
  (Diagnostic.plain kind (k.enter c.name).location).withDetail detail

/-- What there is to report on the link of a class: that it leads back to the class, and that it
leads to another class that is not there. -/
def linkReports (h : Hierarchy) (k : Context) (c : ClassDoc) : Diagnostics :=
  (if h.Returns c then [linkReport k c .parentCycle c.name] else []) ++
    (h.missing? c).toList.map (linkReport k c .unresolvedParent)

theorem brokenLink?_of_onCycle (ho : h.OnCycle c) :
    (h.flatten c).brokenLink? = some (.parentCycle, c.name) := by
  have hs : (h.flatten c).stop = .cycle c.name := ho
  rw [Flattened.brokenLink?, hs]
  exact if_pos rfl

theorem brokenLink?_of_missing? (hp : h.missing? c = some p) :
    (h.flatten c).brokenLink? = some (.unresolvedParent, p) := by
  have ha := ancestry_eq_unresolved_iff.2 hp
  have hs : (h.flatten c).stop = .unresolved p := congrArg Ancestry.stop ha
  have hc : (h.flatten c).ancestors = [] := congrArg Ancestry.chain ha
  rw [Flattened.brokenLink?, hs, hc]
  rfl

theorem brokenLink?_eq_none (ho : ¬ h.OnCycle c) (hm : h.missing? c = none) :
    (h.flatten c).brokenLink? = none := by
  rw [Flattened.brokenLink?]
  split
  · next p hs =>
    refine if_neg fun hc => ?_
    have ha : h.ancestry c = ⟨[], .unresolved p⟩ :=
      congrArg₂ Ancestry.mk (List.isEmpty_iff.1 hc) hs
    exact absurd (hm.symm.trans (ancestry_eq_unresolved_iff.1 ha)) (Option.some_ne_none p).symm
  · next name hs => exact if_neg fun hn => ho (hs.trans (congrArg Stop.cycle hn))
  · rfl

/-- Flattening finds the broken links that there are to report on. -/
theorem linkReports_eq_map_brokenLink? (h : Hierarchy) (k : Context) (c : ClassDoc) :
    h.linkReports k c =
      (h.flatten c).brokenLink?.toList.map fun link => linkReport k c link.1 link.2 := by
  by_cases ho : h.OnCycle c
  · rw [linkReports, if_pos (onCycle_iff_returns.1 ho), missing?_eq_none_of_onCycle ho,
      brokenLink?_of_onCycle ho]
    rfl
  · rw [linkReports, if_neg (onCycle_iff_returns.not.1 ho), List.nil_append]
    cases hm : h.missing? c with
    | none =>
      rw [brokenLink?_eq_none ho hm]
      rfl
    | some p =>
      rw [brokenLink?_of_missing? hm]
      rfl

theorem diagnostics_reportLink (h : Hierarchy) (k : Context) (c : ClassDoc) :
    (h.flatten c).reportLink.diagnostics k = h.linkReports k c := by
  rw [linkReports_eq_map_brokenLink?, Flattened.reportLink]
  cases (h.flatten c).brokenLink? <;> rfl

theorem exists_of_mem_linkReports {k : Context} {d : Diagnostic} (hd : d ∈ h.linkReports k c) :
    ∃ kind ∈ linkKinds, ∃ detail, d = linkReport k c kind detail := by
  rcases List.mem_append.1 hd with hd | hd
  · split at hd
    · exact ⟨.parentCycle, by decide, c.name, List.mem_singleton.1 hd⟩
    · exact absurd hd List.not_mem_nil
  · obtain ⟨p, -, rfl⟩ := List.mem_map.1 hd
    exact ⟨.unresolvedParent, by decide, p, rfl⟩

/-- A class reports on its link before anything else, and on no link otherwise. -/
theorem filter_diagnostics_emit_flatten (h : Hierarchy) (k : Context) (c : ClassDoc) :
    (((h.flatten c).emit .builtin).diagnostics k).filter (·.kind ∈ linkKinds) =
      h.linkReports k c := by
  have hown : (h.linkReports k c).filter (·.kind ∈ linkKinds) = h.linkReports k c := by
    refine List.filter_eq_self.2 fun d hd => decide_eq_true ?_
    obtain ⟨kind, hk, detail, rfl⟩ := exists_of_mem_linkReports hd
    exact hk
  have hmade := (h.flatten c).own.made_emission (h.flatten c).parent?
    RuleTable.every_proper_builtin
  have hdisjoint : ∀ kind ∈ memberKinds, kind ∉ linkKinds := by decide
  rw [Flattened.emit, Checked.diagnostics_bind, List.filter_append, diagnostics_reportLink, hown,
    List.append_right_eq_self, List.filter_eq_nil_iff]
  intro d hd
  simpa using hdisjoint _ (hmade.kind_mem hd)

/-- **Broken links are reported exactly where they are.** Whatever the classes are, and whatever
else there is to report, the reports on links are those of the classes, one class after another;
and outside of all declarations such a report is located at the class. -/
theorem link_diagnostics_emit (h : Hierarchy) (k : Context) :
    ((h.emit .builtin).diagnostics k).filter (·.kind ∈ linkKinds) =
        h.classes.flatMap (h.linkReports k) ∧
      (k.scope = [] → ∀ c, ∀ d ∈ h.linkReports k c, d.location = c.name) := by
  constructor
  · rw [emit, Checked.diagnostics_gather, List.filter_flatMap]
    simp only [filter_diagnostics_emit_flatten]
  · intro hs c d hd
    obtain ⟨kind, -, detail, rfl⟩ := exists_of_mem_linkReports hd
    have hl : (k.enter c.name).location = ".".intercalate [c.name] := by
      rw [Context.location, Context.scope_enter, hs, List.nil_append]
    rw [linkReport]
    simpa [Diagnostic.withDetail, Diagnostic.plain] using hl

end Hierarchy

end ApiTypings
