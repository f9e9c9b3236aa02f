import ApiTypings.Docs.Basic
import ApiTypings.Json.Text

/-!
# Fingerprints of methods

A number that depends on the content of a method alone (`MethodDoc.fingerprint`): the CRC-32
checksum of its encoding as bytes (`MethodDoc.encoding`). Every text and every list in the
encoding comes after its length, so that no two ways to divide the same letters look alike.
-/

namespace ApiTypings

namespace Checksum

/-- The divisor of CRC-32, the lowest power first. -/
def divisor : UInt32 := 0xEDB88320

/-- Shifts one bit out of a remainder. -/
def shift (crc : UInt32) : UInt32 :=
  if crc &&& 1 = 1 then (crc >>> 1) ^^^ divisor else crc >>> 1

/-- The remainder after one more byte. -/
def step (crc : UInt32) (byte : UInt8) : UInt32 :=
  shift (shift (shift (shift (shift (shift (shift (shift (crc ^^^ byte.toUInt32))))))))

/-- The CRC-32 checksum of bytes. -/
def crc32 (bytes : List UInt8) : UInt32 := bytes.foldl step 0xFFFFFFFF ^^^ 0xFFFFFFFF

end Checksum

namespace Encoding

/-- The lowest bytes of a number, the lowest of all first. -/
def lowBytes : (count : Nat) → (n : Nat) → List UInt8
  | 0, _ => []
  | count + 1, n => UInt8.ofNat n :: lowBytes count (n / 256)

/-- A length as eight bytes. -/
def length (n : Nat) : List UInt8 := lowBytes 8 n

/-- A text as its length in bytes and its bytes. -/
def text (s : String) : List UInt8 :=
  let bytes := s.toUTF8.data.toList
  length bytes.length ++ bytes

/-- A list as its length and its items. -/
def list {α : Type} (item : α → List UInt8) (items : List α) : List UInt8 :=
  length items.length ++ items.flatMap item

end Encoding

namespace MethodDoc

/-- The content of a method as bytes. The values that it carries along count by their
compact texts. -/
def encoding (m : MethodDoc) : List UInt8 :=
  Encoding.text m.name ++
  Encoding.text m.description ++
  Encoding.list Encoding.text m.aliases ++
  Encoding.list (Encoding.list fun p : ParameterDoc => Encoding.text p.name ++ Encoding.text p.type)
    m.parameters ++
  Encoding.list Encoding.text m.returns ++
  Encoding.list (fun child : Json => Encoding.text child.text) m.children ++
  [if m.isStatic then 1 else 0]

/-- The fingerprint of a method. -/
def fingerprint (m : MethodDoc) : UInt32 := Checksum.crc32 m.encoding

end MethodDoc

end ApiTypings
