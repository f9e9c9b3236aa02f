import ApiTypings.Proofs.Ancestry.Deduplication

/-!
# Which methods survive flattening

Every class is flattened by itself, against what its ancestors document, and they may in turn
leave out what they document. So whether a method is left anywhere on a lineage
(`Survives`) hangs on what is decided for all of its classes.

* **`survives_of_acyclic`** — if the walk does not end in a cycle, every method survives: the
  last class of the lineage that documents it keeps it.
* **`survives_iff_of_cycle`** — if the walk ends in a cycle, the last class may be on the cycle
  and have the others of the cycle as its ancestors. A method survives exactly if it is the
  same as one that at most one class of the cycle documents (`UniqueOnCycle`);
  `not_survives_mutual` is a method that two classes, each the parent of the other, both leave
  to the other.
-/

namespace ApiTypings

namespace Hierarchy

/-- Some class of the lineage keeps the method. -/
def Survives (h : Hierarchy) (c : ClassDoc) (m : MethodDoc) : Prop :=
  ∃ d ∈ h.lineage c, ∃ k ∈ (h.flatten d).own.methods, m.same k = true

instance (h : Hierarchy) (c : ClassDoc) (m : MethodDoc) : Decidable (h.Survives c m) :=
  inferInstanceAs (Decidable (∃ d ∈ h.lineage c, ∃ k ∈ (h.flatten d).own.methods,
    m.same k = true))

/-- At most one class of the lineage that is on a cycle documents the method alike. -/
def UniqueOnCycle (h : Hierarchy) (c : ClassDoc) (m : MethodDoc) : Prop :=
  ∀ a ∈ h.lineage c, ∀ b ∈ h.lineage c, h.OnCycle a → h.OnCycle b →
    Documents MethodDoc.fingerprint a m → Documents MethodDoc.fingerprint b m → a.name = b.name

variable {h : Hierarchy} {c : ClassDoc} {m : MethodDoc}

/-- A class whose ancestors do not document a method that it documents keeps it. -/
theorem survives_of_documents {d : ClassDoc} (hd : d ∈ h.lineage c) {n : MethodDoc}
    (hmn : m.same n = true) (hn : Documents MethodDoc.fingerprint d n)
    (hr : ¬ Recurs MethodDoc.fingerprint (h.ancestry d).chain n) : h.Survives c m := by
  obtain ⟨k, hk, hnk⟩ := hn
  have hkept : k ∈ (h.flatten d).own.methods :=
    mem_own_methods_iff.2 ⟨hk, fun hr' => hr (hr'.of_alike hnk)⟩
  exact ⟨d, hd, k, hkept, MethodDoc.same_trans hmn hnk.2⟩

/-- **On a lineage that ends, every method survives.** -/
theorem survives_of_acyclic (hs : ∀ name, (h.ancestry c).stop ≠ .cycle name)
    (hm : m ∈ c.methods) : h.Survives c m := by
  have hr : Recurs MethodDoc.fingerprint (h.lineage c) m :=
    ⟨c, h.mem_lineage_self c, documents_of_mem hm⟩
  obtain ⟨pre, d, post, hl, hd, hpost⟩ := hr.exists_last
  have hmem : d ∈ h.lineage c := hl ▸ List.mem_append_cons_self
  refine survives_of_documents hmem m.same_refl hd ?_
  rw [ancestry_of_lineage_eq hs hl]
  exact hpost

/-- A class that documents again what its ancestors do. -/
def unresolvedChild : ClassDoc :=
  { name := "Player", parent := some "Living",
    methods := [{ name := "getName" }, { name := "getPos" }] }

/-- A lineage that ends at a parent which is not there, and a second class with the name of one
of the ancestors. -/
def unresolved : Hierarchy where
  classes :=
    [unresolvedChild,
      { name := "Living", parent := some "Entity", methods := [{ name := "getPos" }] },
      { name := "Entity", parent := some "Missing", methods := [{ name := "getName" }] },
      { name := "Entity", methods := [{ name := "getPos" }] }]

theorem survives_of_acyclic_unresolved :
    (∀ name, (unresolved.ancestry unresolvedChild).stop ≠ .cycle name) ∧
      { name := "getName" } ∈ unresolvedChild.methods ∧
      unresolved.Survives unresolvedChild { name := "getName" } := by
  have hstop : (unresolved.ancestry unresolvedChild).stop = .unresolved "Missing" := by
    decide +kernel
  have hs : ∀ name, (unresolved.ancestry unresolvedChild).stop ≠ .cycle name := by
    intro name
    rw [hstop]
    exact Stop.noConfusion
  exact ⟨hs, List.mem_cons_self, survives_of_acyclic hs List.mem_cons_self⟩

/-- A method that is kept is documented by at most one class of the cycle: every class of the
lineage has the classes of the cycle as its ancestors, apart from itself. -/
theorem uniqueOnCycle_of_mem {tail loop : List ClassDoc} (hl : h.lineage c = tail ++ loop)
    (hr : Rho h tail loop) {d : ClassDoc} (hd : d ∈ h.lineage c) {k : MethodDoc}
    (hk : k ∈ (h.flatten d).own.methods) : h.UniqueOnCycle c k := by
  obtain ⟨-, hnot⟩ := mem_own_methods_iff.1 hk
  rw [hl] at hd
  have heq : ∀ a ∈ h.lineage c, h.OnCycle a → Documents MethodDoc.fingerprint a k → a = d := by
    intro a ha hcycle hdoc
    rw [hl] at ha
    by_contra hne
    have hloop := (hr.onCycle_iff ha).1 hcycle
    exact hnot ⟨a, hr.mem_chain_of_mem_loop hd hloop hne, hdoc⟩
  intro a ha b hb hca hcb hda hdb
  rw [heq a ha hca hda, heq b hb hcb hdb]

/-- A method that at most one class of the cycle documents is kept by the last class of the
lineage that documents it. -/
theorem survives_of_uniqueOnCycle {tail loop : List ClassDoc}
    (hl : h.lineage c = tail ++ loop) (hr : Rho h tail loop) {n : MethodDoc}
    (hn : Recurs MethodDoc.fingerprint (h.lineage c) n) (hu : h.UniqueOnCycle c n)
    (hmn : m.same n = true) : h.Survives c m := by
  obtain ⟨pre, d, post, hlast, hd, hpost⟩ := hn.exists_last
  have hmem : d ∈ h.lineage c := hlast ▸ List.mem_append_cons_self
  refine survives_of_documents hmem hmn hd ?_
  by_cases hcycle : h.OnCycle d
  · -- the ancestors are the rest of the cycle, which does not document the method again
    rintro ⟨x, hx, hdoc⟩
    obtain ⟨hloop, hne⟩ := hr.mem_loop_of_mem_chain ((hr.onCycle_iff (hl ▸ hmem)).1 hcycle) hx
    have hxl : x ∈ h.lineage c := hl ▸ List.mem_append_right _ hloop
    have hxc : h.OnCycle x := (hr.onCycle_iff (hl ▸ hxl)).2 hloop
    exact hne ((h.fresh_lineage c).eq_of_name_eq hxl hmem (hu x hxl d hmem hxc hcycle hdoc hd))
  · -- the ancestors are what comes behind on the lineage
    rw [hr.chain_of_not_onCycle (hl ▸ hlast) hcycle]
    exact hpost

/-- **On a lineage that ends in a cycle, a method survives exactly if it is the same as one that
at most one class of the cycle documents.** -/
theorem survives_iff_of_cycle (hd : h.Distinct) (hc : c ∈ h.classes) {name : String}
    (hs : (h.ancestry c).stop = .cycle name) :
    h.Survives c m ↔
      ∃ d ∈ h.lineage c, ∃ n ∈ d.methods, m.same n = true ∧ h.UniqueOnCycle c n := by
  obtain ⟨tail, loop, hl, hr⟩ := exists_rho hd hc hs
  constructor
  · rintro ⟨d, hd, k, hk, hmk⟩
    exact ⟨d, hd, k, (mem_own_methods_iff.1 hk).1, hmk, uniqueOnCycle_of_mem hl hr hd hk⟩
  · rintro ⟨d, hd, n, hn, hmn, hu⟩
    exact survives_of_uniqueOnCycle hl hr ⟨d, hd, documents_of_mem hn⟩ hu hmn

/-- A class whose parent has it as its parent. -/
def mutualChild : ClassDoc :=
  { name := "A", parent := some "B", methods := [{ name := "a" }, { name := "b" }] }

/-- Two classes that are each other's parents and have a method in common. -/
def mutualParents : Hierarchy where
  classes := [mutualChild, { name := "B", parent := some "A", methods := [{ name := "b" }] }]

/-- Each of the two classes leaves the common method to the other. -/
theorem not_survives_mutual :
    mutualParents.Distinct ∧ mutualChild ∈ mutualParents.classes ∧
      (mutualParents.ancestry mutualChild).stop = .cycle "A" ∧
      { name := "b" } ∈ mutualChild.methods ∧
      ¬ mutualParents.Survives mutualChild { name := "b" } :=
  ⟨by decide +kernel, List.mem_cons_self, by decide +kernel,
    List.mem_cons_of_mem _ List.mem_cons_self, by decide +kernel⟩

theorem survives_iff_of_cycle_mutual :
    mutualParents.Distinct ∧ mutualChild ∈ mutualParents.classes ∧
      (mutualParents.ancestry mutualChild).stop = .cycle "A" ∧
      (mutualParents.Survives mutualChild { name := "a" } ↔
        ∃ d ∈ mutualParents.lineage mutualChild, ∃ n ∈ d.methods,
          MethodDoc.same { name := "a" } n = true ∧ mutualParents.UniqueOnCycle mutualChild n) := by
  have hd : mutualParents.Distinct := by decide +kernel
  have hs : (mutualParents.ancestry mutualChild).stop = .cycle "A" := by decide +kernel
  exact ⟨hd, List.mem_cons_self, hs, survives_iff_of_cycle hd List.mem_cons_self hs⟩

end Hierarchy

end ApiTypings
