import ApiTypings.Docs.Basic

/-!
# Sameness is an equivalence

Two methods are the same if all their parts are equal, apart from the values that they carry
along, which need only be the same as JSON values (`MethodDoc.same`): the two zeros among the
doubles are one number. So sameness is weaker than equality, and that it is an equivalence
has to be proved along the values (`Json.same_symm`, `Json.same_trans`). For methods this is
**`MethodDoc.same_symm`** and **`MethodDoc.same_trans`**.
-/

namespace ApiTypings

/-! ### Numbers -/

namespace Number

theorem same_symm {m n : Number} (h : m.same n = true) : n.same m = true := by
  cases m with
  | whole i _ =>
    cases n with
    | whole j _ =>
      simp only [same, beq_iff_eq] at h ⊢
      exact h.symm
    | double y => simp [same] at h
  | double x =>
    cases n with
    | whole j _ => simp [same] at h
    | double y => exact Binary64.same_symm h

theorem same_trans {l m n : Number} (hlm : l.same m = true) (hmn : m.same n = true) :
    l.same n = true := by
  cases l with
  | whole i _ =>
    cases m with
    | whole j _ =>
      cases n with
      | whole k _ =>
        simp only [same, beq_iff_eq] at hlm hmn ⊢
        exact hlm.trans hmn
      | double z => simp [same] at hmn
    | double y => simp [same] at hlm
  | double x =>
    cases m with
    | whole j _ => simp [same] at hlm
    | double y =>
      cases n with
      | whole k _ => simp [same] at hmn
      | double z => exact Binary64.same_trans hlm hmn

end Number

/-! ### JSON values -/

namespace Json

mutual

theorem same_symm : ∀ {v w : Json}, same v w = true → same w v = true
  | .null, w, h => by
    cases w with
    | null => exact h
    | _ => simp [same] at h
  | .bool a, w, h => by
    cases w with
    | bool b =>
      obtain rfl : a = b := by simpa [same] using h
      exact h
    | _ => simp [same] at h
  | .num m, w, h => by
    cases w with
    | num n => exact Number.same_symm h
    | _ => simp [same] at h
  | .str s, w, h => by
    cases w with
    | str t =>
      obtain rfl : s = t := by simpa [same] using h
      exact h
    | _ => simp [same] at h
  | .arr xs, w, h => by
    cases w with
    | arr ys =>
      rw [same] at h ⊢
      exact sameItems_symm h
    | _ => simp [same] at h
  | .obj xs, w, h => by
    cases w with
    | obj ys =>
      rw [same] at h ⊢
      exact sameEntries_symm h
    | _ => simp [same] at h

theorem sameItems_symm : ∀ {xs ys : List Json}, sameItems xs ys = true → sameItems ys xs = true
  | [], ys, h => by
    cases ys with
    | nil => exact h
    | cons y ys => simp [sameItems] at h
  | x :: xs, ys, h => by
    cases ys with
    | nil => simp [sameItems] at h
    | cons y ys =>
      simp only [sameItems, Bool.and_eq_true] at h ⊢
      exact ⟨same_symm h.1, sameItems_symm h.2⟩

theorem sameEntries_symm :
    ∀ {xs ys : List (String × Json)}, sameEntries xs ys = true → sameEntries ys xs = true
  | [], ys, h => by
    cases ys with
    | nil => exact h
    | cons y ys => simp [sameEntries] at h
  | (k, x) :: xs, ys, h => by
    cases ys with
    | nil => simp [sameEntries] at h
    | cons entry ys =>
      obtain ⟨l, y⟩ := entry
      simp only [sameEntries, Bool.and_eq_true, beq_iff_eq] at h ⊢
      exact ⟨⟨h.1.1.symm, same_symm h.1.2⟩, sameEntries_symm h.2⟩

end

mutual

theorem same_trans : ∀ {u v w : Json}, same u v = true → same v w = true → same u w = true
  | .null, v, w, huv, hvw => by
    cases v with
    | null => exact hvw
    | _ => simp [same] at huv
  | .bool a, v, w, huv, hvw => by
    cases v with
    | bool b =>
      obtain rfl : a = b := by simpa [same] using huv
      exact hvw
    | _ => simp [same] at huv
  | .num l, v, w, huv, hvw => by
    cases v with
    | num m =>
      cases w with
      | num n => exact Number.same_trans huv hvw
      | _ => simp [same] at hvw
    | _ => simp [same] at huv
  | .str s, v, w, huv, hvw => by
    cases v with
    | str t =>
      obtain rfl : s = t := by simpa [same] using huv
      exact hvw
    | _ => simp [same] at huv
  | .arr xs, v, w, huv, hvw => by
    cases v with
    | arr ys =>
      cases w with
      | arr zs =>
        rw [same] at huv hvw ⊢
        exact sameItems_trans huv hvw
      | _ => simp [same] at hvw
    | _ => simp [same] at huv
  | .obj xs, v, w, huv, hvw => by
    cases v with
    | obj ys =>
      cases w with
      | obj zs =>
        rw [same] at huv hvw ⊢
        exact sameEntries_trans huv hvw
      | _ => simp [same] at hvw
    | _ => simp [same] at huv

theorem sameItems_trans : ∀ {xs ys zs : List Json},
    sameItems xs ys = true → sameItems ys zs = true → sameItems xs zs = true
  | [], ys, zs, hxy, hyz => by
    cases ys with
    | nil => exact hyz
    | cons y ys => simp [sameItems] at hxy
  | x :: xs, ys, zs, hxy, hyz => by
    cases ys with
    | nil => simp [sameItems] at hxy
    | cons y ys =>
      cases zs with
      | nil => simp [sameItems] at hyz
      | cons z zs =>
        simp only [sameItems, Bool.and_eq_true] at hxy hyz ⊢
        exact ⟨same_trans hxy.1 hyz.1, sameItems_trans hxy.2 hyz.2⟩

theorem sameEntries_trans : ∀ {xs ys zs : List (String × Json)},
    sameEntries xs ys = true → sameEntries ys zs = true → sameEntries xs zs = true
  | [], ys, zs, hxy, hyz => by
    cases ys with
    | nil => exact hyz
    | cons y ys => simp [sameEntries] at hxy
  | (k, x) :: xs, ys, zs, hxy, hyz => by
    cases ys with
    | nil => simp [sameEntries] at hxy
    | cons entry ys =>
      obtain ⟨l, y⟩ := entry
      cases zs with
      | nil => simp [sameEntries] at hyz
      | cons entry zs =>
        obtain ⟨j, z⟩ := entry
        simp only [sameEntries, Bool.and_eq_true, beq_iff_eq] at hxy hyz ⊢
        exact ⟨⟨hxy.1.1.trans hyz.1.1, same_trans hxy.1.2 hyz.1.2⟩, sameEntries_trans hxy.2 hyz.2⟩

end

end Json

/-! ### Methods -/

namespace MethodDoc

/-- Two methods are the same exactly if their parts are equal and their carried values the
same. -/
theorem same_iff {m n : MethodDoc} :
    m.same n = true ↔
      (m.name = n.name ∧ m.description = n.description ∧ m.aliases = n.aliases ∧
        m.parameters = n.parameters ∧ m.returns = n.returns ∧ m.isStatic = n.isStatic) ∧
      Json.sameItems m.children n.children = true := by
  simp only [same, Bool.and_eq_true, beq_iff_eq]
  constructor
  · rintro ⟨⟨⟨⟨⟨⟨hn, hd⟩, ha⟩, hp⟩, hr⟩, hc⟩, hs⟩
    exact ⟨⟨hn, hd, ha, hp, hr, hs⟩, hc⟩
  · rintro ⟨⟨hn, hd, ha, hp, hr, hs⟩, hc⟩
    exact ⟨⟨⟨⟨⟨⟨hn, hd⟩, ha⟩, hp⟩, hr⟩, hc⟩, hs⟩

theorem same_symm {m n : MethodDoc} (h : m.same n = true) : n.same m = true := by
  rw [same_iff] at h ⊢
  obtain ⟨⟨hn, hd, ha, hp, hr, hs⟩, hc⟩ := h
  exact ⟨⟨hn.symm, hd.symm, ha.symm, hp.symm, hr.symm, hs.symm⟩, Json.sameItems_symm hc⟩

theorem same_trans {l m n : MethodDoc} (hlm : l.same m = true) (hmn : m.same n = true) :
    l.same n = true := by
  rw [same_iff] at hlm hmn ⊢
  obtain ⟨⟨hn, hd, ha, hp, hr, hs⟩, hc⟩ := hlm
  obtain ⟨⟨hn', hd', ha', hp', hr', hs'⟩, hc'⟩ := hmn
  exact ⟨⟨hn.trans hn', hd.trans hd', ha.trans ha', hp.trans hp', hr.trans hr', hs.trans hs'⟩,
    Json.sameItems_trans hc hc'⟩

end MethodDoc

end ApiTypings
