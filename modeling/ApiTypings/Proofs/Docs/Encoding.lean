import ApiTypings.Ancestry.Fingerprint
import ApiTypings.Proofs.Docs.Sameness

/-!
# Sameness and encodings

Whether two methods are the same is decided on the values that they carry along, and their
encodings hold the texts of these values. The two notions part company at one place: the two
zeros among the doubles are one number and have two texts.

* `Json.eq_of_bytes_append` — values that are the same and have one text are equal, whatever
  follows their texts: along the two values the texts agree up to the sign of a zero.
* **`MethodDoc.encoding_eq_iff_of_same`** — methods that are the same have one encoding exactly
  if they are equal.
* **`MethodDoc.eq_of_same_of_zeroFree`** — if a method carries no such zero along, every method
  that is the same is equal to it.
-/

namespace ApiTypings

/-- Characters as bytes. -/
def Encoding.bytes (cs : List Char) : List UInt8 := cs.flatMap String.utf8EncodeChar

open Encoding

theorem bytes_append (cs ds : List Char) : bytes (cs ++ ds) = bytes cs ++ bytes ds :=
  List.flatMap_append

theorem bytes_cons (c : Char) (cs : List Char) :
    bytes (c :: cs) = String.utf8EncodeChar c ++ bytes cs :=
  List.flatMap_cons

/-! ### Numbers -/

namespace Binary64

/-- Doubles that are the same number are equal, or are zeros with different signs. -/
theorem eq_or_zeros_of_same {x y : Binary64} (h : x.same y = true) :
    x = y ∨ x.isZero = true ∧ y.isZero = true ∧ x.negative = !y.negative := by
  obtain ⟨a, i⟩ := x
  obtain ⟨b, j⟩ := y
  simp only [same, isZero, Bool.and_eq_true, Bool.or_eq_true, beq_iff_eq] at h ⊢
  obtain ⟨rfl, hs⟩ := h
  by_cases hab : a = b
  · exact .inl (by rw [hab])
  · exact .inr ⟨hs.resolve_left hab, hs.resolve_left hab, Bool.eq_not_of_ne hab⟩

end Binary64

namespace Number

/-- A zero is written with its sign. -/
theorem chars_of_isZero {x : Binary64} (h : x.isZero = true) :
    (double x).chars = (if x.negative then ['-'] else []) ++ ['0', '.', '0'] := by
  rw [chars, Binary64.shortest, if_pos h]
  rfl

/-- Numbers that are the same are equal, or are doubles that are zeros with different signs. -/
theorem eq_or_zeros_of_same {m n : Number} (h : m.same n = true) :
    m = n ∨ ∃ x y, m = double x ∧ n = double y ∧
      x.isZero = true ∧ y.isZero = true ∧ x.negative = !y.negative := by
  cases m with
  | whole i _ =>
    cases n with
    | whole j _ =>
      obtain rfl : i = j := by simpa [same] using h
      exact .inl rfl
    | double y => simp [same] at h
  | double x =>
    cases n with
    | whole j _ => simp [same] at h
    | double y =>
      rcases Binary64.eq_or_zeros_of_same h with rfl | hzeros
      · exact .inl rfl
      · exact .inr ⟨x, y, rfl, rfl, hzeros⟩

theorem eq_of_bytes_append {m n : Number} (h : m.same n = true) {r s : List UInt8}
    (he : bytes m.chars ++ r = bytes n.chars ++ s) : m = n ∧ r = s := by
  rcases eq_or_zeros_of_same h with rfl | ⟨x, y, rfl, rfl, hx, hy, hsign⟩
  · exact ⟨rfl, List.append_cancel_left he⟩
  · -- one of the two texts begins with a minus, the other with a digit
    rw [chars_of_isZero hx, chars_of_isZero hy, hsign] at he
    cases hn : y.negative <;> simp [hn, bytes, String.utf8EncodeChar] at he

end Number

/-! ### Values and their texts -/

namespace Json

mutual

/-- Values that are the same are told apart by their texts, and a text ends where it must. -/
theorem eq_of_bytes_append : ∀ {v w : Json}, same v w = true → ∀ {r s : List UInt8},
    bytes v.chars ++ r = bytes w.chars ++ s → v = w ∧ r = s
  | .null, w, h, r, s, he => by
    cases w with
    | null => exact ⟨rfl, List.append_cancel_left he⟩
    | _ => simp [same] at h
  | .bool a, w, h, r, s, he => by
    cases w with
    | bool b =>
      obtain rfl : a = b := by simpa [same] using h
      exact ⟨rfl, List.append_cancel_left he⟩
    | _ => simp [same] at h
  | .num m, w, h, r, s, he => by
    cases w with
    | num n =>
      obtain ⟨rfl, hrs⟩ := Number.eq_of_bytes_append (by simpa [same] using h) he
      exact ⟨rfl, hrs⟩
    | _ => simp [same] at h
  | .str a, w, h, r, s, he => by
    cases w with
    | str b =>
      obtain rfl : a = b := by simpa [same] using h
      exact ⟨rfl, List.append_cancel_left he⟩
    | _ => simp [same] at h
  | .arr xs, w, h, r, s, he => by
    cases w with
    | arr ys =>
      rw [same] at h
      simp only [chars, bytes_cons, List.append_assoc] at he
      obtain ⟨rfl, hrs⟩ := eq_of_itemBytes_append h true (List.append_cancel_left he)
      exact ⟨rfl, hrs⟩
    | _ => simp [same] at h
  | .obj xs, w, h, r, s, he => by
    cases w with
    | obj ys =>
      rw [same] at h
      simp only [chars, bytes_cons, List.append_assoc] at he
      obtain ⟨rfl, hrs⟩ := eq_of_entryBytes_append h true (List.append_cancel_left he)
      exact ⟨rfl, hrs⟩
    | _ => simp [same] at h

theorem eq_of_itemBytes_append : ∀ {xs ys : List Json}, sameItems xs ys = true →
    ∀ (first : Bool) {r s : List UInt8},
      bytes (itemChars first xs) ++ r = bytes (itemChars first ys) ++ s → xs = ys ∧ r = s
  | [], ys, h, first, r, s, he => by
    cases ys with
    | nil => exact ⟨rfl, List.append_cancel_left he⟩
    | cons y ys => simp [sameItems] at h
  | x :: xs, ys, h, first, r, s, he => by
    cases ys with
    | nil => simp [sameItems] at h
    | cons y ys =>
      rw [sameItems, Bool.and_eq_true] at h
      simp only [itemChars, bytes_append, List.append_assoc] at he
      obtain ⟨rfl, hrest⟩ := eq_of_bytes_append h.1 (List.append_cancel_left he)
      obtain ⟨rfl, hrs⟩ := eq_of_itemBytes_append h.2 false hrest
      exact ⟨rfl, hrs⟩

theorem eq_of_entryBytes_append : ∀ {xs ys : List (String × Json)}, sameEntries xs ys = true →
    ∀ (first : Bool) {r s : List UInt8},
      bytes (entryChars first xs) ++ r = bytes (entryChars first ys) ++ s → xs = ys ∧ r = s
  | [], ys, h, first, r, s, he => by
    cases ys with
    | nil => exact ⟨rfl, List.append_cancel_left he⟩
    | cons y ys => simp [sameEntries] at h
  | (k, x) :: xs, ys, h, first, r, s, he => by
    cases ys with
    | nil => simp [sameEntries] at h
    | cons entry ys =>
      obtain ⟨l, y⟩ := entry
      simp only [sameEntries, Bool.and_eq_true, beq_iff_eq] at h
      obtain ⟨⟨rfl, hxy⟩, hxys⟩ := h
      simp only [entryChars, bytes_append, bytes_cons, List.append_assoc] at he
      have hvalue := List.append_cancel_left (List.append_cancel_left (List.append_cancel_left he))
      obtain ⟨rfl, hrest⟩ := eq_of_bytes_append hxy hvalue
      obtain ⟨rfl, hrs⟩ := eq_of_entryBytes_append hxys false hrest
      exact ⟨rfl, hrs⟩

end

/-! ### Values without zeros among the doubles -/

mutual

/-- Whether no number of a value is a zero among the doubles. -/
def zeroFree : Json → Bool
  | .num (.double x) => !x.isZero
  | .arr items => zeroFreeItems items
  | .obj entries => zeroFreeEntries entries
  | _ => true

/-- Whether no number of a list of values is a zero among the doubles. -/
def zeroFreeItems : List Json → Bool
  | [] => true
  | x :: xs => zeroFree x && zeroFreeItems xs

/-- Whether no number of the entries of an object is a zero among the doubles. -/
def zeroFreeEntries : List (String × Json) → Bool
  | [] => true
  | (_, x) :: xs => zeroFree x && zeroFreeEntries xs

end

mutual

theorem eq_of_same_of_zeroFree : ∀ {v w : Json}, same v w = true → v.zeroFree = true → v = w
  | .null, w, h, _ => by
    cases w with
    | null => rfl
    | _ => simp [same] at h
  | .bool a, w, h, _ => by
    cases w with
    | bool b => simpa [same] using h
    | _ => simp [same] at h
  | .num m, w, h, hz => by
    cases w with
    | num n =>
      rcases Number.eq_or_zeros_of_same (by simpa [same] using h) with rfl | ⟨x, y, rfl, rfl, hx, -⟩
      · rfl
      · simp [zeroFree, hx] at hz
    | _ => simp [same] at h
  | .str a, w, h, _ => by
    cases w with
    | str b => simpa [same] using h
    | _ => simp [same] at h
  | .arr xs, w, h, hz => by
    cases w with
    | arr ys =>
      rw [same] at h
      rw [zeroFree] at hz
      rw [eqItems_of_same_of_zeroFree h hz]
    | _ => simp [same] at h
  | .obj xs, w, h, hz => by
    cases w with
    | obj ys =>
      rw [same] at h
      rw [zeroFree] at hz
      rw [eqEntries_of_same_of_zeroFree h hz]
    | _ => simp [same] at h

theorem eqItems_of_same_of_zeroFree : ∀ {xs ys : List Json}, sameItems xs ys = true →
    zeroFreeItems xs = true → xs = ys
  | [], ys, h, _ => by
    cases ys with
    | nil => rfl
    | cons y ys => simp [sameItems] at h
  | x :: xs, ys, h, hz => by
    cases ys with
    | nil => simp [sameItems] at h
    | cons y ys =>
      rw [sameItems, Bool.and_eq_true] at h
      rw [zeroFreeItems, Bool.and_eq_true] at hz
      rw [eq_of_same_of_zeroFree h.1 hz.1, eqItems_of_same_of_zeroFree h.2 hz.2]

theorem eqEntries_of_same_of_zeroFree : ∀ {xs ys : List (String × Json)},
    sameEntries xs ys = true → zeroFreeEntries xs = true → xs = ys
  | [], ys, h, _ => by
    cases ys with
    | nil => rfl
    | cons y ys => simp [sameEntries] at h
  | (k, x) :: xs, ys, h, hz => by
    cases ys with
    | nil => simp [sameEntries] at h
    | cons entry ys =>
      obtain ⟨l, y⟩ := entry
      simp only [sameEntries, Bool.and_eq_true, beq_iff_eq] at h
      obtain ⟨⟨rfl, hxy⟩, hxys⟩ := h
      rw [zeroFreeEntries, Bool.and_eq_true] at hz
      rw [eq_of_same_of_zeroFree hxy hz.1, eqEntries_of_same_of_zeroFree hxys hz.2]

end

theorem length_eq_of_sameItems {xs ys : List Json} (h : sameItems xs ys = true) :
    xs.length = ys.length := by
  induction xs generalizing ys with
  | nil =>
    cases ys with
    | nil => rfl
    | cons y ys => simp [sameItems] at h
  | cons x xs ih =>
    cases ys with
    | nil => simp [sameItems] at h
    | cons y ys =>
      rw [sameItems, Bool.and_eq_true] at h
      rw [List.length_cons, List.length_cons, ih h.2]

end Json

/-! ### Encodings -/

namespace Encoding

theorem length_lowBytes (count n : Nat) : (lowBytes count n).length = count := by
  induction count generalizing n with
  | zero => rfl
  | succ count ih => rw [lowBytes, List.length_cons, ih]

/-- A length takes the same number of bytes, whatever it is. -/
theorem length_length (n : Nat) : (length n).length = 8 := length_lowBytes 8 n

theorem toUTF8_ofList (cs : List Char) : (String.ofList cs).toUTF8.data.toList = bytes cs := by
  rw [String.toUTF8_eq_toByteArray, String.toByteArray_ofList, List.utf8Encode]
  simp [bytes]

/-- The text of a value is encoded as its length and its bytes. -/
theorem text_json (v : Json) : text v.text = length (bytes v.chars).length ++ bytes v.chars := by
  rw [text, Json.text, toUTF8_ofList]

/-- Carried values that are the same are told apart by their texts within an encoding. -/
theorem eq_of_textBytes_append {xs ys : List Json} (h : Json.sameItems xs ys = true)
    {r s : List UInt8}
    (he : xs.flatMap (fun x => text x.text) ++ r = ys.flatMap (fun y => text y.text) ++ s) :
    xs = ys ∧ r = s := by
  induction xs generalizing ys with
  | nil =>
    cases ys with
    | nil => exact ⟨rfl, he⟩
    | cons y ys => simp [Json.sameItems] at h
  | cons x xs ih =>
    cases ys with
    | nil => simp [Json.sameItems] at h
    | cons y ys =>
      rw [Json.sameItems, Bool.and_eq_true] at h
      rw [List.flatMap_cons, List.flatMap_cons, text_json x, text_json y] at he
      simp only [List.append_assoc] at he
      obtain ⟨-, hvalue⟩ := List.append_inj he (by rw [length_length, length_length])
      obtain ⟨rfl, hrest⟩ := Json.eq_of_bytes_append h.1 hvalue
      obtain ⟨rfl, hrs⟩ := ih h.2 hrest
      exact ⟨rfl, hrs⟩

end Encoding

namespace MethodDoc

/-- Methods that are the same can differ in what they carry along alone. -/
theorem eq_of_same_of_children {m n : MethodDoc} (h : m.same n = true)
    (hc : m.children = n.children) : m = n := by
  obtain ⟨⟨hn, hd, ha, hp, hr, hs⟩, -⟩ := same_iff.1 h
  cases m
  cases n
  simp only [mk.injEq]
  exact ⟨hn, hd, ha, hp, hr, hc, hs⟩

/-- **Methods that are the same have one encoding exactly if they are equal.** -/
theorem encoding_eq_iff_of_same {m n : MethodDoc} (h : m.same n = true) :
    m.encoding = n.encoding ↔ m = n := by
  obtain ⟨⟨hn, hd, ha, hp, hr, hs⟩, hc⟩ := same_iff.1 h
  constructor
  · intro he
    simp only [encoding, Encoding.list, hn, hd, ha, hp, hr, hs, Json.length_eq_of_sameItems hc,
      List.append_assoc, List.append_cancel_left_eq] at he
    exact eq_of_same_of_children h (eq_of_textBytes_append hc he).1
  · rintro rfl
    rfl

/-- **A method without zeros among the doubles that it carries along is equal to every method
that is the same.** -/
theorem eq_of_same_of_zeroFree {m n : MethodDoc} (h : m.same n = true)
    (hz : Json.zeroFreeItems m.children = true) : m = n :=
  eq_of_same_of_children h (Json.eqItems_of_same_of_zeroFree (same_iff.1 h).2 hz)

end MethodDoc

end ApiTypings
