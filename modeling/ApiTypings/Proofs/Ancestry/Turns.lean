import ApiTypings.Proofs.Ancestry.Climb
import Mathlib.Data.List.Chain
import Mathlib.Data.List.Dedup
import Mathlib.Data.List.Perm.Subperm

/-!
# Walks turn by turn

A walk is a loop: turn by turn it looks at the name of the next parent, and it either ends there or
takes the parent for one more ancestor (`Underway.turn`). Nothing in a turn gets smaller by itself.
This module says after how many turns the loop ends, and what it has found, without the loop.

* `answer?_eq` — from wherever a walk is under way, the loop ends after as many turns as there are
  ancestors to find and one more, with the ancestors that `Hierarchy.walk` finds from there.
* `length_chain_le` — there are no more ancestors than names.
* `IsAncestry` — the ancestors are parents of one another with distinct names, and what the last
  of them names as its parent is the reason why there are no more.
* **`ancestry_eq_iff`** — the loop ends, and this is what it finds, and nothing else is.
-/

namespace ApiTypings

namespace Hierarchy

variable {h : Hierarchy} {c : ClassDoc}

/-! ### The loop -/

/-- A walk under way: the ancestors that it has found, the nearest first, the names that it has
met, and the name of the parent that it looks at next. -/
structure Underway where
  chain : List ClassDoc
  met : List String
  parent? : Option String

namespace Underway

/-- A walk that sets out from a class. -/
def start (c : ClassDoc) : Underway := ⟨[], [c.name], c.parentName?⟩

/-- One turn: the walk ends at the next parent, or the parent is one more ancestor. -/
def turn (h : Hierarchy) (w : Underway) : Stop ⊕ Underway :=
  match w.parent? with
  | none => .inl .root
  | some name =>
    if name ∈ w.met then .inl (.cycle name)
    else
      match h.find? name with
      | none => .inl (.unresolved name)
      | some c => .inr ⟨w.chain ++ [c], name :: w.met, c.parentName?⟩

/-- What the walk has found when it ends, if it ends within so many turns. -/
def answer? (h : Hierarchy) : (turns : Nat) → Underway → Option Ancestry
  | 0, _ => none
  | turns + 1, w => Sum.elim (fun stop => some ⟨w.chain, stop⟩) (answer? h turns) (w.turn h)

/-- A turn ends the walk where there are no more ancestors, or it goes on to the next of them. -/
theorem turn_cases (h : Hierarchy) (w : Underway) :
    (∃ stop, w.turn h = .inl stop ∧ h.walk w.met w.parent? = ⟨[], stop⟩) ∨
    ∃ c w', w.turn h = .inr w' ∧ w'.chain = w.chain ++ [c] ∧
      h.walk w.met w.parent? =
        ⟨c :: (h.walk w'.met w'.parent?).chain, (h.walk w'.met w'.parent?).stop⟩ := by
  obtain ⟨chain, met, parent⟩ := w
  cases parent with
  | none => exact .inl ⟨.root, rfl, walk_none h met⟩
  | some name =>
    by_cases hm : name ∈ met
    · exact .inl ⟨.cycle name, if_pos hm, walk_of_mem h hm⟩
    · cases hf : h.find? name with
      | none =>
        refine .inl ⟨.unresolved name, ?_, walk_of_find?_eq_none h hm hf⟩
        simp only [turn, if_neg hm, hf]
      | some c =>
        refine .inr ⟨c, ⟨chain ++ [c], name :: met, c.parentName?⟩, ?_, rfl,
          walk_of_find?_eq_some h hm hf⟩
        simp only [turn, if_neg hm, hf]

/-- **A walk under way ends one turn after its last ancestor**, with all ancestors that there are
from where it is. -/
theorem answer?_eq (h : Hierarchy) (turns : Nat) (w : Underway) :
    w.answer? h turns =
      if (h.walk w.met w.parent?).chain.length < turns then
        some ⟨w.chain ++ (h.walk w.met w.parent?).chain, (h.walk w.met w.parent?).stop⟩
      else none := by
  -- every turn leaves another walk under way, so the induction is for all of them
  induction turns generalizing w with
  | zero => rfl
  | succ turns ih =>
    rcases turn_cases h w with ⟨stop, ht, hw⟩ | ⟨c, w', ht, hchain, hw⟩
    · rw [answer?, ht, hw, Sum.elim_inl, List.length_nil, if_pos turns.succ_pos, List.append_nil]
    · rw [answer?, ht, hw, Sum.elim_inr, ih, hchain, List.append_assoc, List.singleton_append]
      simp only [List.length_cons, Nat.succ_lt_succ_iff]

end Underway

/-! ### What the loop finds -/

/-- The first class that has the name that a class gives as its parent. -/
def parentOf? (h : Hierarchy) (c : ClassDoc) : Option ClassDoc := c.parentName?.bind h.find?

theorem parentOf?_eq_some_iff {d : ClassDoc} :
    h.parentOf? c = some d ↔ c.parentName? = some d.name ∧ h.find? d.name = some d := by
  rw [parentOf?, Option.bind_eq_some_iff]
  constructor
  · rintro ⟨name, hp, hf⟩
    obtain rfl := name_of_find? hf
    exact ⟨hp, hf⟩
  · rintro ⟨hp, hf⟩
    exact ⟨d.name, hp, hf⟩

/-- What the ancestors of a class are, and the reason why there are no more. -/
structure IsAncestry (h : Hierarchy) (c : ClassDoc) (a : Ancestry) : Prop where
  /-- The class and its ancestors have distinct names. -/
  nodup : ((c :: a.chain).map (·.name)).Nodup
  /-- The first ancestor is the parent of the class, and each other one that of the one before. -/
  parents : (c :: a.chain).IsChain fun d e => h.parentOf? d = some e
  /-- There are no more because the last of them names no parent, or an empty one. -/
  root_iff : a.stop = .root ↔
    (a.chain.getLastD c).parent = none ∨ (a.chain.getLastD c).parent = some ""
  /-- There are no more because the last of them names the class or an ancestor. -/
  cycle_iff (name : String) : a.stop = .cycle name ↔
    (a.chain.getLastD c).parentName? = some name ∧ name ∈ (c :: a.chain).map (·.name)
  /-- There are no more because the last of them names none of these, and no class at all. -/
  unresolved_iff (name : String) : a.stop = .unresolved name ↔
    (a.chain.getLastD c).parentName? = some name ∧ name ∉ (c :: a.chain).map (·.name) ∧
      ∀ d ∈ h.classes, d.name ≠ name

/-- A climb from the parent of a class is a chain of parents, and leads to the parent of its last
class. -/
theorem climb_iff_isChain {cs : List ClassDoc} {q : Option String} :
    Climb h c.parentName? cs q ↔
      (c :: cs).IsChain (fun d e => h.parentOf? d = some e) ∧
        q = (cs.getLastD c).parentName? := by
  -- each class of the chain is the one whose parent comes next
  induction cs generalizing c with
  | nil => simp [climb_nil_iff, eq_comm]
  | cons d cs ih =>
    rw [climb_cons_iff, ih, List.isChain_cons_cons, parentOf?_eq_some_iff, List.getLastD_cons,
      and_assoc, and_assoc]

/-- Where a walk ends, the name that it looks at decides why. -/
theorem ends_iff {met : List String} {q : Option String} {stop : Stop} :
    Ends h met q stop ↔
      (stop = .root ↔ q = none) ∧
      (∀ name, stop = .cycle name ↔ q = some name ∧ name ∈ met) ∧
      ∀ name, stop = .unresolved name ↔ q = some name ∧ name ∉ met ∧ h.find? name = none := by
  constructor
  · intro he
    cases he with
    | root => simp
    | unresolved hm hf => grind
    | cycle hm => grind
  · rintro ⟨hroot, hcycle, hunresolved⟩
    cases stop with
    | root =>
      obtain rfl := hroot.1 rfl
      exact .root
    | unresolved name =>
      obtain ⟨rfl, hm, hf⟩ := (hunresolved name).1 rfl
      exact .unresolved hm hf
    | cycle name =>
      obtain ⟨rfl, hm⟩ := (hcycle name).1 rfl
      exact .cycle hm

/-- These are the conditions on a walk that answers: classes with new names, one after another, to
where it ends. -/
theorem isAncestry_iff {a : Ancestry} :
    h.IsAncestry c a ↔
      Fresh [c.name] a.chain ∧ ∃ q, Climb h c.parentName? a.chain q ∧
        Ends h (a.chain.map (·.name) ++ [c.name]) q a.stop := by
  have hfresh : ((c :: a.chain).map (·.name)).Nodup ↔ Fresh [c.name] a.chain :=
    calc
      ((c :: a.chain).map (·.name)).Nodup ↔ Fresh [] (c :: a.chain) :=
        (and_iff_left fun _ _ => List.not_mem_nil).symm
      _ ↔ Fresh [c.name] a.chain := fresh_cons_iff.trans (and_iff_right List.not_mem_nil)
  -- the walk has met the class before its ancestors; the conditions count it as the first of them
  have hmet (name : String) :
      name ∈ a.chain.map (·.name) ++ [c.name] ↔ name ∈ (c :: a.chain).map (·.name) := by
    simp [or_comm]
  simp only [climb_iff_isChain, ends_iff, hmet, find?_eq_none_iff, and_assoc]
  constructor
  · rintro ⟨hn, hp, hroot, hcycle, hunresolved⟩
    rw [← ClassDoc.parentName?_eq_none_iff] at hroot
    exact ⟨hfresh.1 hn, _, hp, rfl, hroot, hcycle, hunresolved⟩
  · rintro ⟨hn, q, hp, rfl, hroot, hcycle, hunresolved⟩
    rw [ClassDoc.parentName?_eq_none_iff] at hroot
    exact ⟨hfresh.2 hn, hp, hroot, hcycle, hunresolved⟩

/-- There are no more ancestors than names of classes. -/
theorem length_chain_le (h : Hierarchy) (c : ClassDoc) :
    (h.ancestry c).chain.length ≤ (h.classes.map (·.name)).dedup.length := by
  obtain ⟨hn, q, hq, -⟩ := climb_ancestry h c
  have hclasses : (h.ancestry c).chain ⊆ h.classes := fun d hd => mem_of_find? (hq.find?_name hd)
  have hnames : (h.ancestry c).chain.map (·.name) ⊆ (h.classes.map (·.name)).dedup :=
    List.Subset.trans (List.map_subset _ hclasses) (List.subset_dedup _)
  simpa using (hn.1.subperm hnames).length_le

/-- **A walk ends, and finds the parents of parents.** Run as a loop, it ends one turn after its
last ancestor, and there are no more ancestors than names of classes. What it finds are the parents,
one after another, with distinct names, up to a class that names no parent, or one of those, or none
that is there; and nothing but this is what it finds. -/
theorem ancestry_eq_iff (h : Hierarchy) (c : ClassDoc) :
    (∀ turns, (Underway.start c).answer? h turns =
      if (h.ancestry c).chain.length < turns then some (h.ancestry c) else none) ∧
    (h.ancestry c).chain.length ≤ (h.classes.map (·.name)).dedup.length ∧
    ∀ a, h.ancestry c = a ↔ h.IsAncestry c a := by
  refine ⟨fun turns => ?_, h.length_chain_le c, fun a => ?_⟩
  · rw [Underway.answer?_eq, Underway.start, List.nil_append, ← ancestry]
  · rw [isAncestry_iff, ancestry]
    exact walk_eq_iff

end Hierarchy

end ApiTypings
