import ApiTypings.Proofs.Emission.Extends
import Mathlib.Data.Prod.Lex
import Mathlib.Logic.Relation

/-!
# Cycles of interfaces

The links among classes may lead in a circle. The walk from a class is cut where it repeats, but
the interface of a class extends what the first step of its own walk finds, and the walks of the
classes on a circle are cut at different places. Only the circle of a class that names itself is
cut at its one link.

A second kind of circle comes from the two interfaces of a model part: if the one with its members
has the name of a documented class, that name extends the parents of both.

* **`acyclic_iff`** — whoever goes from interface to interface never returns, exactly if the links
  lead back only to classes that name themselves, and no class with a name of a model part has
  another one as its ancestor (`Hierarchy.Straight`). `not_acyclic_mutual` are two classes that
  extend each other.
-/

namespace ApiTypings

open Relation (TransGen ReflTransGen)

namespace ClassDoc

/-- A class that has the name of one of the two interfaces of a model part. -/
def IsModel (c : ClassDoc) : Prop := c.name = modelPart ∨ c.name = modelPartMembers

instance (c : ClassDoc) : Decidable c.IsModel :=
  inferInstanceAs (Decidable (c.name = modelPart ∨ c.name = modelPartMembers))

theorem membersName_of_isModel {c : ClassDoc} (hc : c.IsModel) :
    c.membersName = modelPartMembers := by
  unfold membersName
  split
  · rfl
  · next hm => exact hc.resolve_left hm

theorem membersName_of_not_isModel {c : ClassDoc} (hc : ¬ c.IsModel) : c.membersName = c.name :=
  if_neg fun hm => hc (.inl hm)

end ClassDoc

namespace Hierarchy

/-- Links that lead in no circle of interfaces. -/
structure Straight (h : Hierarchy) : Prop where
  /-- A class to which the links lead back names itself. -/
  self_of_onCycle : ∀ c ∈ h.classes, h.OnCycle c → c.parentName? = some c.name
  /-- A class with a name of a model part has no ancestor with such a name. -/
  not_isModel : ∀ c ∈ h.classes, c.IsModel → ∀ e ∈ (h.ancestry c).chain, ¬ e.IsModel

variable {h : Hierarchy} {c : ClassDoc}

theorem chain_of_parentName?_eq_self (hp : c.parentName? = some c.name) :
    (h.ancestry c).chain = [] := by
  rw [ancestry, hp, walk_of_mem h (List.mem_singleton_self _)]

/-- A class without ancestors to which the links lead back names itself. -/
theorem parentName?_of_onCycle (ho : h.OnCycle c) (hnil : (h.ancestry c).chain = []) :
    c.parentName? = some c.name := by
  obtain ⟨-, q, hq, he⟩ := climb_ancestry h c
  rw [hnil] at hq
  rw [ho] at he
  cases he with
  | cycle => exact climb_nil_iff.1 hq

/-- **Where links lead back only to classes that name themselves, the further ancestors of a class
are the ancestors of its parent.** -/
theorem Straight.chain_parent (hs : h.Straight) (hd : h.Distinct) (hc : c ∈ h.classes)
    {p : ClassDoc} {rest : List ClassDoc} (hchain : (h.ancestry c).chain = p :: rest) :
    (h.ancestry p).chain = rest := by
  have hl : h.lineage c = [c] ++ p :: rest := congrArg (c :: ·) hchain
  by_cases hcycle : ∃ name, (h.ancestry c).stop = .cycle name
  · obtain ⟨name, hstop⟩ := hcycle
    obtain ⟨tail, loop, hl', hr⟩ := exists_rho hd hc hstop
    by_cases hp : h.OnCycle p
    · -- the parent names itself, so that the walk has met it when it is to go on
      have hself := hs.self_of_onCycle p (parent_of_chain_eq_cons hchain).2.2.2 hp
      obtain ⟨hn, q, hq, -⟩ := climb_ancestry h c
      rw [hchain] at hn hq
      obtain ⟨-, -, hrest⟩ := climb_cons_iff.1 hq
      rw [chain_of_parentName?_eq_self hself]
      cases rest with
      | nil => rfl
      | cons x rest =>
        obtain ⟨hx, -⟩ := climb_cons_iff.1 hrest
        have hxp : p.name = x.name := Option.some.inj (hself.symm.trans hx)
        exact absurd (by simp [hxp]) ((fresh_cons_iff.1 hn).2.2 x List.mem_cons_self)
    · exact hr.chain_of_not_onCycle (hl' ▸ hl) hp
  · rw [ancestry_of_lineage_eq (not_exists.1 hcycle) hl]

/-! ### Ranks of names -/

/-- One of a class and its ancestors has the name of a model part. -/
def LeadsToModel (h : Hierarchy) (c : ClassDoc) : Prop := ∃ e ∈ h.lineage c, e.IsModel

instance (h : Hierarchy) (c : ClassDoc) : Decidable (h.LeadsToModel c) :=
  inferInstanceAs (Decidable (∃ e ∈ h.lineage c, e.IsModel))

/-- How far a class is from having no ancestors: those that lead to a model part are further. -/
def height (h : Hierarchy) (c : ClassDoc) : ℕ ×ₗ ℕ :=
  toLex (if h.LeadsToModel c then 2 else 0, (h.ancestry c).chain.length)

/-- How far a name is from extending nothing. The members of a model part stand between the
classes that lead to it and those that do not, because two classes may have come to this name. -/
def rank (h : Hierarchy) (name : String) : ℕ ×ₗ ℕ :=
  if name = ClassDoc.modelPartMembers then toLex (1, 0)
  else (h.find? name).elim (toLex (0, 0)) h.height

theorem rank_modelPartMembers (h : Hierarchy) :
    h.rank ClassDoc.modelPartMembers = toLex (1, 0) := if_pos rfl

theorem rank_name (hd : h.Distinct) (hc : c ∈ h.classes)
    (hm : c.name ≠ ClassDoc.modelPartMembers) : h.rank c.name = h.height c := by
  rw [rank, if_neg hm, find?_name_of_mem hd hc, Option.elim_some]

theorem rank_modelPart_gt (hd : h.Distinct) (hc : c ∈ h.classes)
    (hm : c.name = ClassDoc.modelPart) :
    h.rank ClassDoc.modelPartMembers < h.rank ClassDoc.modelPart := by
  have hne : c.name ≠ ClassDoc.modelPartMembers := hm ▸ by decide
  have hleads : h.LeadsToModel c := ⟨c, h.mem_lineage_self c, .inl hm⟩
  rw [rank_modelPartMembers, ← hm, rank_name hd hc hne, height, if_pos hleads,
    Prod.Lex.toLex_lt_toLex]
  exact .inl Nat.one_lt_two

/-- The parent of a class has a lower rank than the interface with the members of the class. -/
theorem Straight.rank_parent_lt (hs : h.Straight) (hd : h.Distinct) (hc : c ∈ h.classes)
    {p : ClassDoc} {rest : List ClassDoc} (hchain : (h.ancestry c).chain = p :: rest) :
    h.rank p.name < h.rank c.membersName := by
  have hp : p ∈ h.classes := (parent_of_chain_eq_cons hchain).2.2.2
  have hrest := hs.chain_parent hd hc hchain
  have hl : h.lineage p = (h.ancestry c).chain := by rw [lineage, hrest, hchain]
  by_cases hcm : c.IsModel
  · have hnot : ¬ h.LeadsToModel p := by
      rintro ⟨e, he, hem⟩
      exact hs.not_isModel c hc hcm e (hl ▸ he) hem
    have hpm : p.name ≠ ClassDoc.modelPartMembers := fun hn =>
      hnot ⟨p, h.mem_lineage_self p, .inr hn⟩
    rw [ClassDoc.membersName_of_isModel hcm, rank_modelPartMembers, rank_name hd hp hpm, height,
      if_neg hnot, Prod.Lex.toLex_lt_toLex]
    exact .inl Nat.one_pos
  · rw [ClassDoc.membersName_of_not_isModel hcm, rank_name hd hc fun hn => hcm (.inr hn)]
    have hleads (hlp : h.LeadsToModel p) : h.LeadsToModel c := by
      obtain ⟨e, he, hem⟩ := hlp
      exact ⟨e, List.mem_cons_of_mem _ (hl ▸ he), hem⟩
    by_cases hpm : p.name = ClassDoc.modelPartMembers
    · rw [hpm, rank_modelPartMembers, height,
        if_pos (hleads ⟨p, h.mem_lineage_self p, .inr hpm⟩), Prod.Lex.toLex_lt_toLex]
      exact .inl Nat.one_lt_two
    · rw [rank_name hd hp hpm, height, height, hrest, hchain, List.length_cons,
        Prod.Lex.toLex_lt_toLex]
      by_cases hlp : h.LeadsToModel p
      · rw [if_pos hlp, if_pos (hleads hlp)]
        exact .inr ⟨rfl, Nat.lt_succ_self _⟩
      · rw [if_neg hlp]
        split
        · exact .inl Nat.two_pos
        · exact .inr ⟨rfl, Nat.lt_succ_self _⟩

end Hierarchy

namespace Docs

variable {d : Docs} {config : Config} {c : ClassDoc}

/-! ### Circles of links are circles of interfaces -/

theorem reflTransGen_membersName (hc : c ∈ d.classes) :
    ReflTransGen (Statement.Extends (d.compile config).statements) c.name c.membersName := by
  unfold ClassDoc.membersName
  split
  · next hm =>
    rw [hm]
    exact .single ((extends_modelPart_iff hc hm).2 rfl)
  · exact .refl

theorem extends_of_chain_eq_cons (hc : c ∈ d.classes) {p : ClassDoc} {rest : List ClassDoc}
    (hchain : (d.hierarchy.ancestry c).chain = p :: rest) :
    Statement.Extends (d.compile config).statements c.membersName p.name :=
  (extends_compile_iff d config).2
    ⟨c, hc, .inl ⟨rfl, Hierarchy.parent?_flatten_eq_some_iff.2 ⟨p, rest, hchain, rfl⟩⟩⟩

/-- Where links lead to new classes, interfaces lead to their interfaces. -/
theorem transGen_of_climb (hc : c ∈ d.classes) {cs : List ClassDoc} {q : Option String}
    (hclimb : d.hierarchy.Climb c.parentName? cs q) (hn : Hierarchy.Fresh [] (c :: cs))
    {e : ClassDoc} (he : e ∈ cs) :
    TransGen (Statement.Extends (d.compile config).statements) c.membersName e.membersName := by
  induction cs generalizing c with
  | nil => exact absurd he List.not_mem_nil
  | cons p rest ih =>
    obtain ⟨hp, hf, hrest⟩ := Hierarchy.climb_cons_iff.1 hclimb
    obtain ⟨-, hn⟩ := Hierarchy.fresh_cons_iff.1 hn
    have hchain : (d.hierarchy.ancestry c).chain =
        p :: (d.hierarchy.walk [p.name, c.name] p.parentName?).chain := by
      rw [Hierarchy.ancestry, hp,
        Hierarchy.walk_of_find?_eq_some _ (hn.2 p List.mem_cons_self) hf]
    have hmem : p ∈ d.classes := Hierarchy.mem_of_find? hf
    have hlink : TransGen (Statement.Extends (d.compile config).statements) c.membersName
        p.membersName :=
      .head' (extends_of_chain_eq_cons hc hchain) (reflTransGen_membersName hmem)
    rcases List.mem_cons.1 he with rfl | he
    · exact hlink
    · exact hlink.trans (ih hmem hrest (hn.anti (List.nil_subset _)) he)

/-- From the members of a class one comes to those of its ancestors. -/
theorem transGen_of_mem_chain (hc : c ∈ d.classes) {e : ClassDoc}
    (he : e ∈ (d.hierarchy.ancestry c).chain) :
    TransGen (Statement.Extends (d.compile config).statements) c.membersName e.membersName := by
  obtain ⟨-, q, hq, -⟩ := d.hierarchy.climb_ancestry c
  exact transGen_of_climb hc hq (d.hierarchy.fresh_lineage c) he

/-- A class other than its own parent to which the links lead back: its interface leads back to
itself. -/
theorem transGen_of_onCycle (hd : d.hierarchy.Distinct) (hc : c ∈ d.classes)
    (ho : d.hierarchy.OnCycle c) (hp : c.parentName? ≠ some c.name) :
    TransGen (Statement.Extends (d.compile config).statements) c.membersName c.membersName := by
  obtain ⟨tail, loop, hl, hr⟩ := Hierarchy.exists_rho hd hc ho
  have hloop : c ∈ loop := (hr.onCycle_iff (hl ▸ d.hierarchy.mem_lineage_self c)).1 ho
  cases hchain : (d.hierarchy.ancestry c).chain with
  | nil => exact absurd (Hierarchy.parentName?_of_onCycle ho hchain) hp
  | cons p rest =>
    have hpc : p ∈ (d.hierarchy.ancestry c).chain := hchain ▸ List.mem_cons_self
    obtain ⟨hploop, hne⟩ := hr.mem_loop_of_mem_chain hloop hpc
    have hcp := hr.mem_chain_of_mem_loop (List.mem_append_right _ hploop) hloop hne.symm
    have hmem : p ∈ d.classes := (Hierarchy.parent_of_chain_eq_cons hchain).2.2.2
    exact (transGen_of_mem_chain hc hpc).trans (transGen_of_mem_chain hmem hcp)

/-! ### Interfaces lead down in rank -/

theorem rank_lt_of_extends (hd : d.hierarchy.Distinct) (hs : d.hierarchy.Straight)
    {name parent : String} (hext : Statement.Extends (d.compile config).statements name parent) :
    d.hierarchy.rank parent < d.hierarchy.rank name := by
  obtain ⟨c, hc, ⟨rfl, hparent⟩ | ⟨hm, rfl, rfl⟩⟩ := (extends_compile_iff d config).1 hext
  · obtain ⟨p, rest, hchain, rfl⟩ := Hierarchy.parent?_flatten_eq_some_iff.1 hparent
    exact hs.rank_parent_lt hd hc hchain
  · exact Hierarchy.rank_modelPart_gt hd hc hm

theorem rank_lt_of_transGen (hd : d.hierarchy.Distinct) (hs : d.hierarchy.Straight)
    {name other : String}
    (hext : TransGen (Statement.Extends (d.compile config).statements) name other) :
    d.hierarchy.rank other < d.hierarchy.rank name := by
  induction hext with
  | single hlink => exact rank_lt_of_extends hd hs hlink
  | tail _ hlink ih => exact (rank_lt_of_extends hd hs hlink).trans ih

/-- **Whether interfaces extend each other in a circle.** Of documentation whose classes have
distinct names, whoever goes from interface to interface never returns, exactly if the links lead
back only to classes that name themselves and no class with a name of a model part has an ancestor
with such a name. -/
theorem acyclic_iff (d : Docs) (config : Config) (hd : (d.classes.map (·.name)).Nodup) :
    (∀ name, ¬ TransGen (Statement.Extends (d.compile config).statements) name name) ↔
      d.hierarchy.Straight := by
  constructor
  · intro hacyclic
    constructor
    · intro c hc ho
      by_contra hp
      exact hacyclic _ (transGen_of_onCycle hd hc ho hp)
    · intro c hc hcm e he hem
      have hcircle : TransGen (Statement.Extends (d.compile config).statements) c.membersName
          e.membersName := transGen_of_mem_chain hc he
      rw [ClassDoc.membersName_of_isModel hcm, ClassDoc.membersName_of_isModel hem] at hcircle
      exact hacyclic _ hcircle
  · intro hs name hcircle
    exact lt_irrefl _ (rank_lt_of_transGen hd hs hcircle)

/-- A class that names itself as its parent, and a model part below it. -/
def ownParentDocs : Docs where
  globals :=
    { name := "globals"
      fields :=
        [{ name := "model"
           children :=
            [{ name := "Part", parent := some "Part" },
              { name := "ModelPart", parent := some "Part" }] }] }
  math := { name := "math" }

theorem acyclic_iff_ownParent :
    (ownParentDocs.classes.map (·.name)).Nodup ∧
      ∀ name, ¬ TransGen (Statement.Extends
        (ownParentDocs.compile { known := [], rules := .builtin }).statements) name name := by
  have hd : (ownParentDocs.classes.map (·.name)).Nodup := by decide +kernel
  have hs : ownParentDocs.hierarchy.Straight :=
    { self_of_onCycle := by decide +kernel
      not_isModel := by decide +kernel }
  exact ⟨hd, (acyclic_iff ownParentDocs _ hd).2 hs⟩

/-- Two classes that name each other as their parents. -/
def mutualDocs : Docs where
  globals :=
    { name := "globals"
      fields :=
        [{ name := "model", type := "Boolean"
           children :=
            [{ name := "A", parent := some "B" }, { name := "B", parent := some "A" }] }] }
  math := { name := "math" }

/-- The interfaces of the two classes extend each other. -/
theorem not_acyclic_mutual :
    let link := Statement.Extends
      (mutualDocs.compile { known := [], rules := .builtin }).statements
    (mutualDocs.classes.map (·.name)).Nodup ∧ link "A" "B" ∧ link "B" "A" ∧
      ¬ ∀ name, ¬ TransGen link name name := by
  intro link
  have hab : link "A" "B" := by decide +kernel
  have hba : link "B" "A" := by decide +kernel
  exact ⟨by decide +kernel, hab, hba, fun hnot => hnot "A" (.tail (.single hab) hba)⟩

end Docs

end ApiTypings
