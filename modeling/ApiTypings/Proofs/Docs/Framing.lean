import ApiTypings.Proofs.Docs.Encoding

/-!
# Encodings are read in one way

The encoding of a method puts texts and lists one after another, with nothing between them. Each of
them comes after its length, so what is encoded can be told from the bytes, and so can where it
ends, whatever comes next.

* `PrefixFree` — different items have encodings of which none begins the other. Encodings of one
  length are prefix-free if they are different (`of_length`), and so are one encoding after another
  (`append`), many of them after their number (`list`), and what is encoded as something else that
  is different (`comap`).
* `length_eq_iff` — a length is told by its eight bytes if it is below `2 ^ 64`, and this is what
  is asked of all lengths in a method (`MethodDoc.Fits`).
* **`MethodDoc.encoding_append_eq_iff`** — two methods have one encoding exactly if their texts and
  lists are equal, part by part, and no encoding begins with that of another method.
-/

namespace ApiTypings

namespace Encoding

/-! ### Lengths -/

/-- The number of lengths that eight bytes tell apart: `2 ^ 64`. -/
def lengthBound : Nat := 0x10000000000000000

/-- Lowest bytes tell numbers apart up to the bytes that are left out. -/
theorem lowBytes_eq_iff {count n k : Nat} :
    lowBytes count n = lowBytes count k ↔ n % Nat.pow 256 count = k % Nat.pow 256 count := by
  induction count generalizing n k with
  | zero => simp [lowBytes, Nat.mod_one]
  | succ count ih =>
    have hbyte : UInt8.ofNat n = UInt8.ofNat k ↔ n % 256 = k % 256 := by
      rw [← UInt8.toNat_inj, UInt8.toNat_ofNat', UInt8.toNat_ofNat']
    have hpow : Nat.pow 256 (count + 1) = 256 * Nat.pow 256 count := Nat.pow_succ'
    rw [lowBytes, lowBytes, List.cons.injEq, hbyte, ih, hpow, Nat.mod_mul, Nat.mod_mul]
    -- the remainder is its lowest byte and, 256 times, that of the quotient
    omega

theorem length_eq_iff {n k : Nat} :
    length n = length k ↔ n % lengthBound = k % lengthBound :=
  lowBytes_eq_iff

theorem eq_of_length_eq {n k : Nat} (hn : n < lengthBound) (hk : k < lengthBound)
    (he : length n = length k) : n = k := by
  rw [length_eq_iff, Nat.mod_eq_of_lt hn, Nat.mod_eq_of_lt hk] at he
  exact he

/-! ### Encodings that are told apart whatever follows -/

/-- Of the items that fit, the encodings tell which item it is and where they end, whatever
follows. -/
def PrefixFree {α : Type} (Fits : α → Prop) (code : α → List UInt8) : Prop :=
  ∀ ⦃a b : α⦄, Fits a → Fits b → ∀ ⦃r s : List UInt8⦄, code a ++ r = code b ++ s → a = b ∧ r = s

/-- A list that has a length and whose items fit. -/
def ListFits {α : Type} (Fits : α → Prop) (as : List α) : Prop :=
  as.length < lengthBound ∧ ∀ a ∈ as, Fits a

/-- A text that has a length. -/
def TextFits (s : String) : Prop := s.toUTF8.size < lengthBound

instance {α : Type} (Fits : α → Prop) [DecidablePred Fits] : DecidablePred (ListFits Fits) :=
  fun as => inferInstanceAs (Decidable (as.length < lengthBound ∧ ∀ a ∈ as, Fits a))

instance : DecidablePred TextFits :=
  fun s => inferInstanceAs (Decidable (s.toUTF8.size < lengthBound))

namespace PrefixFree

variable {α β : Type} {P : α → Prop} {Q : β → Prop}
  {f : α → List UInt8} {g : β → List UInt8}

/-- Encodings of one length are told apart whatever follows, if they are told apart at all. -/
theorem of_length {count : Nat} (hlength : ∀ a, (f a).length = count)
    (hinj : ∀ a b, P a → P b → f a = f b → a = b) : PrefixFree P f := by
  intro a b ha hb r s he
  obtain ⟨hab, hrs⟩ := List.append_inj he ((hlength a).trans (hlength b).symm)
  exact ⟨hinj a b ha hb hab, hrs⟩

/-- One after another. -/
theorem append (hf : PrefixFree P f) (hg : PrefixFree Q g) :
    PrefixFree (fun p : α × β => P p.1 ∧ Q p.2) fun p => f p.1 ++ g p.2 := by
  rintro ⟨a, b⟩ ⟨a', b'⟩ ⟨ha, hb⟩ ⟨ha', hb'⟩ r s he
  rw [List.append_assoc, List.append_assoc] at he
  obtain ⟨rfl, hrest⟩ := hf ha ha' he
  obtain ⟨rfl, hrs⟩ := hg hb hb' hrest
  exact ⟨rfl, hrs⟩

/-- Items that are encoded as others, different items as different ones. -/
theorem comap (hf : PrefixFree P f) {k : β → α} (hk : Function.Injective k) :
    PrefixFree (fun b => P (k b)) fun b => f (k b) := by
  intro a b ha hb r s he
  obtain ⟨hab, hrs⟩ := hf ha hb he
  exact ⟨hk hab, hrs⟩

/-- As many one after another as of others. -/
theorem flatMap (hf : PrefixFree P f) {as bs : List α} (hlength : as.length = bs.length)
    (has : ∀ a ∈ as, P a) (hbs : ∀ b ∈ bs, P b) {r s : List UInt8}
    (he : as.flatMap f ++ r = bs.flatMap f ++ s) : as = bs ∧ r = s := by
  induction as generalizing bs with
  | nil =>
    obtain rfl := List.length_eq_zero_iff.1 hlength.symm
    exact ⟨rfl, he⟩
  | cons a as ih =>
    cases bs with
    | nil => cases hlength
    | cons b bs =>
      rw [List.forall_mem_cons] at has hbs
      rw [List.flatMap_cons, List.flatMap_cons, List.append_assoc, List.append_assoc] at he
      obtain ⟨rfl, hrest⟩ := hf has.1 hbs.1 he
      obtain ⟨rfl, hrs⟩ := ih (Nat.succ.inj hlength) has.2 hbs.2 hrest
      exact ⟨rfl, hrs⟩

end PrefixFree

theorem prefixFree_length : PrefixFree (· < lengthBound) length :=
  .of_length length_length fun _ _ => eq_of_length_eq

/-- **A list is told by its length and its items, if the items are told.** -/
theorem PrefixFree.list {α : Type} {Fits : α → Prop} {item : α → List UInt8}
    (hitem : PrefixFree Fits item) : PrefixFree (ListFits Fits) (list item) := by
  rintro as bs ⟨hlas, has⟩ ⟨hlbs, hbs⟩ r s he
  rw [Encoding.list, Encoding.list, List.append_assoc, List.append_assoc] at he
  obtain ⟨hlength, he⟩ := prefixFree_length hlas hlbs he
  exact hitem.flatMap hlength has hbs he

/-- Bytes as they are. -/
theorem prefixFree_byte : PrefixFree (fun _ => True) fun b : UInt8 => [b] :=
  .of_length (fun _ => rfl) fun _ _ _ _ => List.singleton_inj.1

/-- A text is told by its length and its bytes. -/
theorem prefixFree_text : PrefixFree TextFits text := by
  have hbytes : Function.Injective fun s : String => s.toUTF8.data.toList := by
    intro s t he
    exact String.toByteArray_inj.1 (ByteArray.ext (Array.toList_inj.1 he))
  have htext (s : String) : text s = list (fun b => [b]) s.toUTF8.data.toList := by
    rw [text, list, List.flatMap_singleton']
  have hfits (s : String) (hs : TextFits s) : ListFits (fun _ => True) s.toUTF8.data.toList :=
    ⟨hs, fun _ _ => trivial⟩
  intro s t hs ht r r' he
  rw [htext, htext] at he
  exact prefixFree_byte.list.comap hbytes (hfits s hs) (hfits t ht) he

/-- Items that are encoded as others are a list of those. -/
theorem list_map {α β : Type} (item : β → List UInt8) (k : α → β) (as : List α) :
    list item (as.map k) = list (fun a => item (k a)) as := by
  rw [list, list, List.length_map, List.flatMap_map]

end Encoding

open Encoding

namespace ParameterDoc

/-- A parameter whose texts have lengths. -/
def Fits (p : ParameterDoc) : Prop := TextFits p.name ∧ TextFits p.type

instance : DecidablePred Fits :=
  fun p => inferInstanceAs (Decidable (TextFits p.name ∧ TextFits p.type))

theorem prefixFree : PrefixFree Fits fun p => text p.name ++ text p.type := by
  have hparts : Function.Injective fun p : ParameterDoc => (p.name, p.type) := by
    rintro ⟨name, type⟩ ⟨name', type'⟩ he
    cases he
    rfl
  exact (prefixFree_text.append prefixFree_text).comap hparts

end ParameterDoc

namespace MethodDoc

/-- A method whose texts and lists have lengths that eight bytes can hold. -/
structure Fits (m : MethodDoc) : Prop where
  name : TextFits m.name
  description : TextFits m.description
  aliases : ListFits TextFits m.aliases
  parameters : ListFits (ListFits ParameterDoc.Fits) m.parameters
  returns : ListFits TextFits m.returns
  children : ListFits TextFits (m.children.map (·.text))

/-- Two methods are equal part by part, where the values that they carry along count by their
compact texts. -/
structure SameTexts (m n : MethodDoc) : Prop where
  name : m.name = n.name
  description : m.description = n.description
  aliases : m.aliases = n.aliases
  parameters : m.parameters = n.parameters
  returns : m.returns = n.returns
  children : m.children.map (·.text) = n.children.map (·.text)
  isStatic : m.isStatic = n.isStatic

/-- The parts of an encoding, one after another. -/
theorem encoding_eq (m : MethodDoc) :
    m.encoding = text m.name ++ (text m.description ++ (list text m.aliases ++
      (list (list fun p : ParameterDoc => text p.name ++ text p.type) m.parameters ++
        (list text m.returns ++ (list text (m.children.map (·.text)) ++
          [if m.isStatic then 1 else 0]))))) := by
  simp only [encoding, list_map, List.append_assoc]

/-- The last byte of an encoding tells whether the method is static. -/
theorem prefixFree_flag :
    PrefixFree (fun _ => True) fun b : Bool => [if b then (1 : UInt8) else 0] :=
  .of_length (fun _ => rfl) fun a b _ _ => by cases a <;> cases b <;> simp

theorem SameTexts.encoding_eq {m n : MethodDoc} (h : m.SameTexts n) : m.encoding = n.encoding := by
  rw [m.encoding_eq, n.encoding_eq, h.name, h.description, h.aliases, h.parameters, h.returns,
    h.children, h.isStatic]

/-- The texts and lists of a method are read off its encoding one by one, and what follows is
left. -/
theorem sameTexts_of_encoding_append {m n : MethodDoc} (hm : m.Fits) (hn : n.Fits)
    {r s : List UInt8} (he : m.encoding ++ r = n.encoding ++ s) : m.SameTexts n ∧ r = s := by
  simp only [encoding_eq, List.append_assoc] at he
  -- each part that is told leaves the equation of what comes after it
  obtain ⟨hname, he⟩ := prefixFree_text hm.name hn.name he
  obtain ⟨hdescription, he⟩ := prefixFree_text hm.description hn.description he
  obtain ⟨haliases, he⟩ := prefixFree_text.list hm.aliases hn.aliases he
  obtain ⟨hparameters, he⟩ := ParameterDoc.prefixFree.list.list hm.parameters hn.parameters he
  obtain ⟨hreturns, he⟩ := prefixFree_text.list hm.returns hn.returns he
  obtain ⟨hchildren, he⟩ := prefixFree_text.list hm.children hn.children he
  obtain ⟨hstatic, hrs⟩ := prefixFree_flag trivial trivial he
  exact ⟨⟨hname, hdescription, haliases, hparameters, hreturns, hchildren, hstatic⟩, hrs⟩

/-- **Encodings are read in one way.** Two methods have one encoding exactly if they have the same
texts in the same places, so the same letters divided in another way, between a name and a
description, between the items of a list or between overloads, are encoded as other bytes. This is
so whatever follows: no encoding begins with that of a method with other texts. -/
theorem encoding_append_eq_iff {m n : MethodDoc} (hm : m.Fits) (hn : n.Fits) :
    (m.encoding = n.encoding ↔ m.SameTexts n) ∧
    ∀ r s, m.encoding ++ r = n.encoding ++ s ↔ m.SameTexts n ∧ r = s := by
  have hread (r s : List UInt8) : m.encoding ++ r = n.encoding ++ s ↔ m.SameTexts n ∧ r = s := by
    constructor
    · exact sameTexts_of_encoding_append hm hn
    · rintro ⟨h, rfl⟩
      rw [h.encoding_eq]
  refine ⟨?_, hread⟩
  simpa using hread [] []

/-- A method with two parameters. -/
def joined : MethodDoc :=
  { name := "ab", description := "c", aliases := ["dé"]
    parameters := [[⟨"x", "Number"⟩, ⟨"y", "Number"⟩]], returns := ["nil", "nil"]
    children := [.str "note", .num (.ofNat 12)] }

/-- The same letters in the same order, divided in another way. -/
def divided : MethodDoc :=
  { name := "a", description := "bc", aliases := ["d", "é"]
    parameters := [[⟨"x", "Number"⟩], [⟨"y", "Number"⟩]], returns := ["nilnil"]
    children := [.str "note", .num (.ofNat 1), .num (.ofNat 2)] }

theorem encoding_append_eq_iff_divided :
    joined.Fits ∧ divided.Fits ∧ ¬ joined.SameTexts divided ∧
      ((joined.encoding = divided.encoding ↔ joined.SameTexts divided) ∧
        ∀ r s, joined.encoding ++ r = divided.encoding ++ s ↔
          joined.SameTexts divided ∧ r = s) := by
  have hj : joined.Fits :=
    ⟨by decide +kernel, by decide +kernel, by decide +kernel, by decide +kernel,
      by decide +kernel, by decide +kernel⟩
  have hd : divided.Fits :=
    ⟨by decide +kernel, by decide +kernel, by decide +kernel, by decide +kernel,
      by decide +kernel, by decide +kernel⟩
  have hne : ¬ joined.SameTexts divided := fun h => absurd h.name (by decide)
  exact ⟨hj, hd, hne, encoding_append_eq_iff hj hd⟩

end MethodDoc

end ApiTypings
