import ApiTypings.Proofs.Ancestry.Climb
import Mathlib.Data.List.Nodup

/-!
# Lineages

The lineage of a class is the class and its ancestors (`Hierarchy.lineage`). Every class on it
has ancestors of its own, found by a walk of its own, and this module says which they are.

* **`ancestry_of_lineage_eq`** — if the walk does not end in a cycle, the ancestors of a class
  on the lineage are the classes behind it on the lineage. This needs nothing of the names of
  the classes: one name may be that of several.
* **`exists_rho`** — if the walk ends in a cycle, and names are distinct, the lineage is a tail
  and a loop (`Rho`): a class on the tail has what comes behind it as its ancestors, and a class
  on the loop has all the others of the loop, those behind it first.
-/

namespace ApiTypings

namespace Hierarchy

variable {h : Hierarchy} {c : ClassDoc}

/-- A class and its ancestors, the nearest first. -/
def lineage (h : Hierarchy) (c : ClassDoc) : List ClassDoc := c :: (h.ancestry c).chain

theorem mem_lineage_self (h : Hierarchy) (c : ClassDoc) : c ∈ h.lineage c := List.mem_cons_self

/-- The walk from a class comes back to it. -/
def OnCycle (h : Hierarchy) (c : ClassDoc) : Prop := (h.ancestry c).stop = .cycle c.name

instance (h : Hierarchy) (c : ClassDoc) : Decidable (h.OnCycle c) :=
  inferInstanceAs (Decidable ((h.ancestry c).stop = .cycle c.name))

/-- No two classes have one name. -/
def Distinct (h : Hierarchy) : Prop := (h.classes.map (·.name)).Nodup

instance (h : Hierarchy) : Decidable h.Distinct :=
  inferInstanceAs (Decidable (h.classes.map (·.name)).Nodup)

/-- With distinct names, every class is found under its name. -/
theorem find?_name_of_mem (hd : h.Distinct) (hc : c ∈ h.classes) : h.find? c.name = some c := by
  obtain ⟨pre, post, hs⟩ := List.append_of_mem hc
  rw [find?, List.find?_eq_some_iff_append]
  refine ⟨by simp, pre, post, hs, fun d hd' => ?_⟩
  have hn : (pre.map (·.name) ++ c.name :: post.map (·.name)).Nodup := by
    rw [Distinct, hs, List.map_append, List.map_cons] at hd
    exact hd
  have hne : d.name ≠ c.name := fun he =>
    (List.nodup_middle.1 hn).notMem (List.mem_append_left _ (he ▸ List.mem_map_of_mem hd'))
  simpa using hne

/-! ### New names -/

theorem fresh_append_iff {met : List String} {cs ds : List ClassDoc} :
    Fresh met (cs ++ ds) ↔ Fresh met cs ∧ Fresh (cs.map (·.name) ++ met) ds := by
  induction cs generalizing met with
  | nil => simp [fresh_nil]
  | cons c cs ih =>
    rw [List.cons_append, fresh_cons_iff, fresh_cons_iff, ih, and_assoc]
    simp only [Fresh, mem_met_cons_iff]

theorem Fresh.anti {met met' : List String} {cs : List ClassDoc} (hf : Fresh met cs)
    (hm : met' ⊆ met) : Fresh met' cs :=
  ⟨hf.1, fun d hd hd' => hf.2 d hd (hm hd')⟩

/-- The names of a lineage are distinct. -/
theorem fresh_lineage (h : Hierarchy) (c : ClassDoc) : Fresh [] (h.lineage c) :=
  fresh_cons_iff.2 ⟨List.not_mem_nil, (climb_ancestry h c).1⟩

/-- Classes with distinct names that have one name are one class. -/
theorem Fresh.eq_of_name_eq {met : List String} {cs : List ClassDoc} (hf : Fresh met cs)
    {d e : ClassDoc} (hd : d ∈ cs) (he : e ∈ cs) (hn : d.name = e.name) : d = e :=
  List.inj_on_of_nodup_map hf.1 hd he hn

/-! ### Walks that end -/

/-- **On a lineage that ends, the ancestors of a class are the classes behind it.** -/
theorem ancestry_of_lineage_eq (hs : ∀ name, (h.ancestry c).stop ≠ .cycle name)
    {pre post : List ClassDoc} {d : ClassDoc} (hl : h.lineage c = pre ++ d :: post) :
    h.ancestry d = ⟨post, (h.ancestry c).stop⟩ := by
  cases pre with
  | nil =>
    obtain ⟨rfl, rfl⟩ := List.cons.inj hl
    rfl
  | cons _ pre =>
    obtain ⟨rfl, hchain⟩ := List.cons.inj hl
    obtain ⟨hn, q, hq, he⟩ := climb_ancestry h c
    rw [hchain, List.append_eq] at hn hq he
    have hn' := (fresh_cons_iff.1 (fresh_append_iff.1 hn).2).2
    obtain ⟨-, -, hq'⟩ := climb_middle_iff.1 hq
    refine walk_of_climb hq' (hn'.anti (by simp)) (he.anti hs fun other ho => ?_)
    simp only [List.map_append, List.map_cons, List.mem_append, List.mem_cons]
    rcases List.mem_append.1 ho with ho | ho
    · exact .inl (.inr (.inr ho))
    · exact .inl (.inr (.inl (List.mem_singleton.1 ho)))

/-! ### Walks that end in a cycle -/

/-- A lineage that is a tail and a loop: the walks from its classes go along the tail and then
round the loop. -/
structure Rho (h : Hierarchy) (tail loop : List ClassDoc) : Prop where
  /-- No class comes twice. -/
  fresh : Fresh [] (tail ++ loop)
  /-- A class on the tail has what comes behind it as its ancestors. -/
  on_tail : ∀ {pre post : List ClassDoc} {d : ClassDoc}, tail = pre ++ d :: post →
    (h.ancestry d).chain = post ++ loop ∧ ¬ h.OnCycle d
  /-- A class on the loop has the others of the loop as its ancestors. -/
  on_loop : ∀ {pre post : List ClassDoc} {d : ClassDoc}, loop = pre ++ d :: post →
    (h.ancestry d).chain = post ++ pre ∧ h.OnCycle d

/-- Names of classes along a climb that leads back to one of them: before that class, walks end
at it, and from that class on they come back to where they began. -/
theorem rho_of_climb {p : Option String} {tail loop : List ClassDoc} {e : ClassDoc}
    (hn : Fresh [] (tail ++ e :: loop)) (hc : Climb h p (tail ++ e :: loop) (some e.name)) :
    Rho h tail (e :: loop) where
  fresh := hn
  on_tail := by
    rintro pre post d rfl
    rw [List.append_assoc, List.cons_append] at hn hc
    have hn' := fresh_cons_iff.1 (fresh_append_iff.1 hn).2
    obtain ⟨-, -, hc'⟩ := climb_middle_iff.1 hc
    have hw : h.ancestry d = ⟨post ++ e :: loop, .cycle e.name⟩ :=
      walk_of_climb hc' (hn'.2.anti (by simp)) (.cycle (by simp))
    have hne : e.name ≠ d.name := fun he => hn'.2.2 e (by simp) (by simp [he])
    rw [OnCycle, hw]
    exact ⟨rfl, fun hs => hne (Stop.cycle.inj hs)⟩
  on_loop := by
    intro pre post d hl
    rw [hl] at hn hc
    have hround : Climb h (some e.name) (pre ++ d :: post) (some e.name) := by
      obtain ⟨r, -, hr⟩ := climb_append_iff.1 hc
      rw [← hl] at hr ⊢
      obtain ⟨rfl, hstep⟩ := climb_cons_iff.1 hr
      exact climb_cons_iff.2 ⟨rfl, hstep⟩
    obtain ⟨hpre, -, hpost⟩ := climb_middle_iff.1 hround
    have hn' : Fresh [d.name] (post ++ pre) := by
      have hm := (fresh_append_iff.1 hn).2.1
      rw [List.map_append, List.map_cons, List.nodup_middle, List.nodup_cons] at hm
      obtain ⟨hd, hm⟩ := hm
      refine ⟨?_, fun x hx hx' => hd ?_⟩
      · rw [List.map_append]
        exact List.nodup_append_comm.1 hm
      · rw [← List.mem_singleton.1 hx', ← List.map_append]
        exact List.mem_map_of_mem (List.mem_append.2 (List.mem_append.1 hx).symm)
    have hw : h.ancestry d = ⟨post ++ pre, .cycle d.name⟩ :=
      walk_of_climb (climb_append_iff.2 ⟨_, hpost, hpre⟩) hn' (.cycle (by simp))
    rw [OnCycle, hw]
    exact ⟨rfl, rfl⟩

/-- **A lineage that ends in a cycle is a tail and a loop.** -/
theorem exists_rho (hd : h.Distinct) (hc : c ∈ h.classes) {name : String}
    (hs : (h.ancestry c).stop = .cycle name) :
    ∃ tail loop, h.lineage c = tail ++ loop ∧ Rho h tail loop := by
  obtain ⟨-, q, hq, he⟩ := climb_ancestry h c
  rw [hs] at he
  cases he with
  | cycle hm =>
    have hclimb : Climb h (some c.name) (h.lineage c) (some name) :=
      .step (find?_name_of_mem hd hc) hq
    have hmem : name ∈ (h.lineage c).map (·.name) := by
      simpa [lineage, or_comm] using hm
    obtain ⟨e, he, rfl⟩ := List.mem_map.1 hmem
    obtain ⟨tail, loop, hl⟩ := List.append_of_mem he
    have hn := fresh_lineage h c
    rw [hl] at hn hclimb
    exact ⟨tail, e :: loop, hl, rho_of_climb hn hclimb⟩

namespace Rho

variable {tail loop : List ClassDoc}

theorem onCycle_iff (hr : Rho h tail loop) {d : ClassDoc} (hd : d ∈ tail ++ loop) :
    h.OnCycle d ↔ d ∈ loop := by
  constructor
  · intro ho
    rcases List.mem_append.1 hd with ht | hl
    · obtain ⟨pre, post, rfl⟩ := List.append_of_mem ht
      exact absurd ho (hr.on_tail rfl).2
    · exact hl
  · intro hl
    obtain ⟨pre, post, rfl⟩ := List.append_of_mem hl
    exact (hr.on_loop rfl).2

/-- Every class of the loop is an ancestor of every other class. -/
theorem mem_chain_of_mem_loop (hr : Rho h tail loop) {d x : ClassDoc} (hd : d ∈ tail ++ loop)
    (hx : x ∈ loop) (hne : x ≠ d) : x ∈ (h.ancestry d).chain := by
  rcases List.mem_append.1 hd with ht | hl
  · obtain ⟨pre, post, rfl⟩ := List.append_of_mem ht
    rw [(hr.on_tail rfl).1]
    exact List.mem_append_right _ hx
  · obtain ⟨pre, post, rfl⟩ := List.append_of_mem hl
    rw [(hr.on_loop rfl).1]
    rcases List.mem_append.1 hx with hx | hx
    · exact List.mem_append_right _ hx
    · rcases List.mem_cons.1 hx with rfl | hx
      · exact absurd rfl hne
      · exact List.mem_append_left _ hx

/-- The ancestors of a class of the loop are other classes of the loop. -/
theorem mem_loop_of_mem_chain (hr : Rho h tail loop) {d x : ClassDoc} (hd : d ∈ loop)
    (hx : x ∈ (h.ancestry d).chain) : x ∈ loop ∧ x ≠ d := by
  have hne : x ≠ d := by
    rintro rfl
    exact (climb_ancestry h x).1.2 x hx (List.mem_singleton_self _)
  obtain ⟨pre, post, rfl⟩ := List.append_of_mem hd
  rw [(hr.on_loop rfl).1] at hx
  refine ⟨?_, hne⟩
  rcases List.mem_append.1 hx with hx | hx
  · exact List.mem_append_right _ (List.mem_cons_of_mem _ hx)
  · exact List.mem_append_left _ hx

/-- A class on the tail has everything behind it on the lineage as its ancestors. -/
theorem chain_of_not_onCycle (hr : Rho h tail loop) {pre post : List ClassDoc} {d : ClassDoc}
    (hl : tail ++ loop = pre ++ d :: post) (ho : ¬ h.OnCycle d) :
    (h.ancestry d).chain = post := by
  have hnot : d ∉ loop := fun hd =>
    ho ((hr.onCycle_iff (List.mem_append_right _ hd)).2 hd)
  rcases List.append_eq_append_iff.1 hl with ⟨as, -, rfl⟩ | ⟨bs, htail, hrest⟩
  · exact (hnot (by simp)).elim
  · cases bs with
    | nil => exact (hnot (by rw [← List.nil_append loop, ← hrest]; simp)).elim
    | cons b bs =>
      obtain ⟨rfl, rfl⟩ := List.cons.inj hrest
      exact (hr.on_tail htail).1

end Rho

end Hierarchy

end ApiTypings
