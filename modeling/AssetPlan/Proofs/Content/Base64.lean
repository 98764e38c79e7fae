import AssetPlan.Content.Base64
import Mathlib.Data.List.Basic

/-! # Reading base64

Padded base64 is read in groups of four characters. Each character stands for its place in the
alphabet, the places of a group are the digits of one number, and the bits that the padding of the
last group leaves over are zero. Reading accepts exactly what encoding writes, so a content has one
text and the text has one content.
-/

namespace AssetPlan.Content.Base64

/-- The standard alphabet. -/
def alphabet : List Char :=
  "ABCDEFGHIJKLMNOPQRSTUVWXYZabcdefghijklmnopqrstuvwxyz0123456789+/".toList

/-- The place of a character in the alphabet. -/
def place? (c : Char) : Option Nat := alphabet.idxOf? c

/-- The number whose digits in base 64 are the places of characters, behind the digits of `n`. -/
def number? : Nat → List Char → Option Nat
  | n, [] => some n
  | n, c :: rest => (place? c).bind fun place => number? (n * 64 + place) rest

/-- The bytes that padded characters stand for. -/
def decode? : List Char → Option Bytes
  | [] => some []
  | [a, b, '=', '='] =>
    (number? 0 [a, b]).bind fun n => if n % 16 = 0 then some [.ofNat (n / 16)] else none
  | [a, b, c, '='] =>
    (number? 0 [a, b, c]).bind fun n =>
      if n % 4 = 0 then some [.ofNat (n / 1024), .ofNat (n / 4)] else none
  | a :: b :: c :: d :: rest =>
    (number? 0 [a, b, c, d]).bind fun n =>
      (decode? rest).map fun bytes => .ofNat (n / 65536) :: .ofNat (n / 256) :: .ofNat n :: bytes
  | _ => none

variable {c : Char} {cs : List Char} {content : Bytes} {n m place : Nat}

theorem alphabet_eq : alphabet = (List.range 64).map character := by decide +kernel

theorem character_ne_pad (small : place < 64) : character place ≠ '=' := by
  have all : ∀ place < 64, character place ≠ '=' := by decide
  exact all place small

theorem place?_eq_some_iff : place? c = some place ↔ place < 64 ∧ character place = c := by
  have all : ∀ place < 64, place? (character place) = some place := by decide +kernel
  constructor
  · intro found
    obtain ⟨inside, same, _⟩ := List.idxOf?_eq_some_iff.mp found
    simp only [alphabet_eq, List.length_map, List.length_range, List.getElem_map,
      List.getElem_range] at inside same
    exact ⟨inside, by simpa using same⟩
  · rintro ⟨small, rfl⟩
    exact all place small

theorem number?_character_cons (small : place < 64) (n : Nat) (cs : List Char) :
    number? n (character place :: cs) = number? (n * 64 + place) cs := by
  rw [number?, place?_eq_some_iff.mpr ⟨small, rfl⟩, Option.bind_some]

theorem number?_nil_eq_some_iff : number? n [] = some m ↔ n = m := Option.some_inj

theorem number?_cons_eq_some_iff : number? n (c :: cs) = some m ↔
    ∃ place < 64, character place = c ∧ number? (n * 64 + place) cs = some m := by
  simp only [number?, Option.bind_eq_some_iff, place?_eq_some_iff, and_assoc]

theorem ofNat_eq_iff {byte : UInt8} : UInt8.ofNat n = byte ↔ n % 256 = byte.toNat := by
  rw [← UInt8.toNat_inj, UInt8.toNat_ofNat']

theorem decode?_encode (content : Bytes) : decode? (encode content) = some content := by
  fun_induction encode content with
  | case1 => rfl
  | case2 a n =>
    have byte : a.toNat < 256 := a.toNat_lt
    have spelled : number? 0 [character (n / 64), character (n % 64)] = some n := by
      rw [number?_character_cons (by omega), number?_character_cons (by omega), number?]
      exact congrArg some (by omega)
    rw [decode?, spelled, Option.bind_some, if_pos (by omega), ofNat_eq_iff.mpr]
    omega
  | case3 a b n =>
    have byte : a.toNat < 256 := a.toNat_lt
    have byte' : b.toNat < 256 := b.toNat_lt
    have spelled : number? 0 [character (n / 4096), character (n / 64 % 64), character (n % 64)] =
        some n := by
      rw [number?_character_cons (by omega), number?_character_cons (by omega),
        number?_character_cons (by omega), number?]
      exact congrArg some (by omega)
    have unpadded : character (n % 64) ≠ '=' := character_ne_pad (by omega)
    rw [decode?, spelled, Option.bind_some, if_pos (by omega), ofNat_eq_iff.mpr, ofNat_eq_iff.mpr]
    · omega
    · omega
    · exact unpadded
  | case4 a b c rest n ih =>
    have byte : a.toNat < 256 := a.toNat_lt
    have byte' : b.toNat < 256 := b.toNat_lt
    have byte'' : c.toNat < 256 := c.toNat_lt
    have spelled : number? 0 [character (n / 262144), character (n / 4096 % 64),
        character (n / 64 % 64), character (n % 64)] = some n := by
      rw [number?_character_cons (by omega), number?_character_cons (by omega),
        number?_character_cons (by omega), number?_character_cons (by omega), number?]
      exact congrArg some (by omega)
    have unpadded : character (n % 64) ≠ '=' := character_ne_pad (by omega)
    rw [decode?, spelled, Option.bind_some, ih, Option.map_some, ofNat_eq_iff.mpr,
      ofNat_eq_iff.mpr, ofNat_eq_iff.mpr]
    · omega
    · omega
    · omega
    · exact fun _ pad _ => unpadded pad
    · exact fun pad _ => unpadded pad

theorem encode_of_decode? (read : decode? cs = some content) : encode content = cs := by
  fun_induction decode? cs generalizing content with
  | case1 =>
    cases read
    rfl
  | case2 a b =>
    obtain ⟨n, spelled, kept⟩ := Option.bind_eq_some_iff.mp read
    simp only [number?_cons_eq_some_iff, number?_nil_eq_some_iff] at spelled
    obtain ⟨x, hx, rfl, y, hy, rfl, rfl⟩ := spelled
    split at kept
    · cases kept
      simp only [encode, UInt8.toNat_ofNat']
      congr 3
      · omega
      · omega
    · cases kept
  | case3 a b c =>
    obtain ⟨n, spelled, kept⟩ := Option.bind_eq_some_iff.mp read
    simp only [number?_cons_eq_some_iff, number?_nil_eq_some_iff] at spelled
    obtain ⟨x, hx, rfl, y, hy, rfl, z, hz, rfl, rfl⟩ := spelled
    split at kept
    · cases kept
      simp only [encode, UInt8.toNat_ofNat']
      congr 4
      · omega
      · omega
      · omega
    · cases kept
  | case4 a b c d rest _ _ ih =>
    obtain ⟨n, spelled, later⟩ := Option.bind_eq_some_iff.mp read
    obtain ⟨bytes, others, rfl⟩ := Option.map_eq_some_iff.mp later
    simp only [number?_cons_eq_some_iff, number?_nil_eq_some_iff] at spelled
    obtain ⟨x, hx, rfl, y, hy, rfl, z, hz, rfl, w, hw, rfl, rfl⟩ := spelled
    rw [encode, ih others]
    simp only [UInt8.toNat_ofNat']
    congr 5
    · omega
    · omega
    · omega
    · omega
  | case5 => cases read

/-- A text is read as a content exactly if it is the text that encodes the content. -/
theorem decode?_eq_some_iff : decode? cs = some content ↔ encode content = cs := by
  constructor
  · exact encode_of_decode?
  · rintro rfl
    exact decode?_encode content

/-- The bits that padding leaves over have to be zero. -/
example : decode? "Zm8=".toList = some [0x66, 0x6f] ∧ decode? "Zm9=".toList = none := by
  decide +kernel

theorem encode_inj {content' : Bytes} : encode content = encode content' ↔ content = content' := by
  rw [← decode?_eq_some_iff, decode?_encode, Option.some_inj, eq_comm]

/-- Three bytes take four characters, and so do the bytes that are left over. -/
theorem length_encode (content : Bytes) :
    (encode content).length = 4 * ((content.length + 2) / 3) := by
  fun_induction encode content with
  | case1 => rfl
  | case2 => simp
  | case3 => simp
  | case4 a b c rest n ih =>
    simp only [List.length_cons, ih]
    omega

end AssetPlan.Content.Base64
