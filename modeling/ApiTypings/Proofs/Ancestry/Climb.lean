import ApiTypings.Ancestry.Walk

/-!
# What a walk is

`Hierarchy.walk` follows the names of parents and remembers the names that it has met. This
module describes its answer without the walk.

* `Climb h p cs q` — from the name `p` on, the parents are the classes `cs` one after another,
  and `q` is what the last of them names as its parent. A climb has no memory, so climbs can be
  cut in two and put together (`climb_append_iff`, `climb_cons_iff`).
* `Ends h met q stop` — at the name `q` a walk that has met the names `met` ends, and why.

**`walk_eq_iff`** — a walk answers with the one climb whose classes have new names and differ
from each other in their names, up to where it ends. All that is proved about ancestors rests
on it.
-/

namespace ApiTypings

namespace Hierarchy

/-- From the name of a parent on, the parents are these classes, and the last of them names
this parent. -/
inductive Climb (h : Hierarchy) : Option String → List ClassDoc → Option String → Prop
  /-- No step. -/
  | stay (p : Option String) : Climb h p [] p
  /-- A step to the first class of the name. -/
  | step {name : String} {c : ClassDoc} {cs : List ClassDoc} {q : Option String} :
      h.find? name = some c → Climb h c.parentName? cs q → Climb h (some name) (c :: cs) q

/-- At this name a walk ends that has met these names, and why. -/
inductive Ends (h : Hierarchy) (met : List String) : Option String → Stop → Prop
  /-- No parent. -/
  | root : Ends h met none .root
  /-- A name that no class has, and that is new. -/
  | unresolved {name : String} : name ∉ met → h.find? name = none →
      Ends h met (some name) (.unresolved name)
  /-- A name that has been met. -/
  | cycle {name : String} : name ∈ met → Ends h met (some name) (.cycle name)

variable {h : Hierarchy}

/-! ### Climbs -/

theorem climb_nil_iff {p q : Option String} : Climb h p [] q ↔ p = q := by
  constructor
  · intro hc
    cases hc
    rfl
  · rintro rfl
    exact .stay p

theorem climb_cons_iff {p q : Option String} {c : ClassDoc} {cs : List ClassDoc} :
    Climb h p (c :: cs) q ↔
      p = some c.name ∧ h.find? c.name = some c ∧ Climb h c.parentName? cs q := by
  constructor
  · intro hc
    cases hc with
    | step hf hcs =>
      rw [name_of_find? hf]
      exact ⟨rfl, hf, hcs⟩
  · rintro ⟨rfl, hf, hcs⟩
    exact .step hf hcs

/-- A climb is cut in two at any place, and two climbs are put together where they meet. -/
theorem climb_append_iff {p q : Option String} {cs ds : List ClassDoc} :
    Climb h p (cs ++ ds) q ↔ ∃ r, Climb h p cs r ∧ Climb h r ds q := by
  induction cs generalizing p with
  | nil =>
    simp only [List.nil_append, climb_nil_iff]
    constructor
    · intro hd
      exact ⟨p, rfl, hd⟩
    · rintro ⟨r, rfl, hd⟩
      exact hd
  | cons c cs ih =>
    rw [List.cons_append, climb_cons_iff, ih]
    constructor
    · rintro ⟨hp, hf, r, hc, hd⟩
      exact ⟨r, climb_cons_iff.2 ⟨hp, hf, hc⟩, hd⟩
    · rintro ⟨r, hc, hd⟩
      obtain ⟨hp, hf, hc⟩ := climb_cons_iff.1 hc
      exact ⟨hp, hf, r, hc, hd⟩

/-- A class in the middle of a climb is where the first part leads and the rest sets out. -/
theorem climb_middle_iff {p q : Option String} {cs ds : List ClassDoc} {d : ClassDoc} :
    Climb h p (cs ++ d :: ds) q ↔
      Climb h p cs (some d.name) ∧ h.find? d.name = some d ∧ Climb h d.parentName? ds q := by
  rw [climb_append_iff]
  constructor
  · rintro ⟨r, hc, hd⟩
    obtain ⟨rfl, hf, hd⟩ := climb_cons_iff.1 hd
    exact ⟨hc, hf, hd⟩
  · rintro ⟨hc, hf, hd⟩
    exact ⟨_, hc, climb_cons_iff.2 ⟨rfl, hf, hd⟩⟩

/-- The classes of a climb are those that are found under their names. -/
theorem Climb.find?_name {p q : Option String} {cs : List ClassDoc} (hc : Climb h p cs q)
    {d : ClassDoc} (hd : d ∈ cs) : h.find? d.name = some d := by
  obtain ⟨pre, post, rfl⟩ := List.append_of_mem hd
  exact (climb_middle_iff.1 hc).2.1

/-! ### Walks -/

/-- Where a walk ends hangs on which names have been met, and not on their order. -/
theorem Ends.congr {met met' : List String} {q : Option String} {stop : Stop}
    (he : Ends h met q stop) (hm : ∀ name, name ∈ met ↔ name ∈ met') : Ends h met' q stop := by
  cases he with
  | root => exact .root
  | unresolved hn hf => exact .unresolved (fun hn' => hn ((hm _).2 hn')) hf
  | cycle hn => exact .cycle ((hm _).1 hn)

/-- A walk that has met less ends at the same name, if it did not end there for having met
it. -/
theorem Ends.anti {met met' : List String} {q : Option String} {stop : Stop}
    (he : Ends h met q stop) (hc : ∀ name, stop ≠ .cycle name) (hm : met' ⊆ met) :
    Ends h met' q stop := by
  cases he with
  | root => exact .root
  | unresolved hn hf => exact .unresolved (fun hn' => hn (hm hn')) hf
  | cycle _ => exact absurd rfl (hc _)

/-- The classes of a walk have new names, and no two of them the same. -/
def Fresh (met : List String) (cs : List ClassDoc) : Prop :=
  (cs.map (·.name)).Nodup ∧ ∀ d ∈ cs, d.name ∉ met

theorem fresh_nil (met : List String) : Fresh met [] := by simp [Fresh]

theorem fresh_cons_iff {met : List String} {c : ClassDoc} {cs : List ClassDoc} :
    Fresh met (c :: cs) ↔ c.name ∉ met ∧ Fresh (c.name :: met) cs := by
  simp only [Fresh, List.map_cons, List.nodup_cons, List.mem_map, List.mem_cons, not_exists,
    not_and, not_or, forall_eq_or_imp]
  constructor
  · rintro ⟨⟨hc, hn⟩, hm, hcs⟩
    exact ⟨hm, hn, fun d hd => ⟨hc d hd, hcs d hd⟩⟩
  · rintro ⟨hm, hn, hcs⟩
    exact ⟨⟨fun d hd => (hcs d hd).1, hn⟩, hm, fun d hd => (hcs d hd).2⟩

/-- It makes no difference whether a class counts as met before or as the first of the walk. -/
theorem mem_met_cons_iff {name : String} {met : List String} {c : ClassDoc}
    {cs : List ClassDoc} :
    name ∈ (c :: cs).map (·.name) ++ met ↔ name ∈ cs.map (·.name) ++ c.name :: met := by
  simp only [List.map_cons, List.cons_append, List.mem_cons, List.mem_append]
  exact or_left_comm

/-- A climb of new names that ends is what the walk answers with. -/
theorem walk_of_climb {met : List String} {p q : Option String} {cs : List ClassDoc}
    {stop : Stop} (hc : Climb h p cs q) (hn : Fresh met cs)
    (he : Ends h (cs.map (·.name) ++ met) q stop) : h.walk met p = ⟨cs, stop⟩ := by
  induction hc generalizing met with
  | stay p =>
    cases he with
    | root => exact walk_none h met
    | unresolved hm hf => exact walk_of_find?_eq_none h hm hf
    | cycle hm => exact walk_of_mem h hm
  | @step name c cs q hf _ ih =>
    obtain rfl := name_of_find? hf
    obtain ⟨hm, hcs⟩ := fresh_cons_iff.1 hn
    rw [walk_of_find?_eq_some h hm hf, ih hcs (he.congr fun _ => mem_met_cons_iff)]

/-- What a walk answers with is a climb of new names that ends. -/
theorem climb_walk (h : Hierarchy) (met : List String) (p : Option String) :
    Fresh met (h.walk met p).chain ∧
      ∃ q, Climb h p (h.walk met p).chain q ∧
        Ends h ((h.walk met p).chain.map (·.name) ++ met) q (h.walk met p).stop := by
  induction met, p using walk.induct h with
  | case1 met =>
    rw [walk_none]
    exact ⟨fresh_nil met, none, .stay _, .root⟩
  | case2 met name hm =>
    rw [walk_of_mem h hm]
    exact ⟨fresh_nil met, some name, .stay _, .cycle hm⟩
  | case3 met name hm hf =>
    rw [walk_of_find?_eq_none h hm hf]
    exact ⟨fresh_nil met, some name, .stay _, .unresolved hm hf⟩
  | case4 met name hm c hf _ ih =>
    obtain rfl := name_of_find? hf
    obtain ⟨hn, q, hc, he⟩ := ih
    rw [walk_of_find?_eq_some h hm hf]
    exact ⟨fresh_cons_iff.2 ⟨hm, hn⟩, q, .step hf hc, he.congr fun _ => mem_met_cons_iff.symm⟩

/-- **A walk is the one climb of new names that ends.** -/
theorem walk_eq_iff {met : List String} {p : Option String} {cs : List ClassDoc} {stop : Stop} :
    h.walk met p = ⟨cs, stop⟩ ↔
      Fresh met cs ∧ ∃ q, Climb h p cs q ∧ Ends h (cs.map (·.name) ++ met) q stop := by
  constructor
  · intro hw
    have hs := climb_walk h met p
    rw [hw] at hs
    exact hs
  · rintro ⟨hn, q, hc, he⟩
    exact walk_of_climb hc hn he

/-- The ancestors of a class are a climb of new names from its parent. -/
theorem climb_ancestry (h : Hierarchy) (c : ClassDoc) :
    Fresh [c.name] (h.ancestry c).chain ∧ ∃ q, Climb h c.parentName? (h.ancestry c).chain q ∧
      Ends h ((h.ancestry c).chain.map (·.name) ++ [c.name]) q (h.ancestry c).stop :=
  climb_walk h [c.name] c.parentName?

end Hierarchy

end ApiTypings
