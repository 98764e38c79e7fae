/-! # UTF-8

Decoding bytes to text. The first sequence that is no character is reported by its index and by the
number of bytes that rule it out; a sequence cut off by the end of the bytes is incomplete.
`takeBytes` cuts a text by its length in bytes; of an ASCII text it takes that many characters.
-/

namespace AssetPlan.Text

/-- Where decoding fails. -/
inductive Utf8Error where
  | invalid (index length : Nat)
  | incomplete (index : Nat)
deriving DecidableEq, Repr

def Utf8Error.message : Utf8Error → String
  | .invalid index length => s!"invalid utf-8 sequence of {length} bytes from index {index}"
  | .incomplete index => s!"incomplete utf-8 byte sequence from index {index}"

/-- A byte that continues a character. -/
def isContinuation (b : UInt8) : Bool := 0x80 ≤ b && b ≤ 0xBF

/-- The bytes that may follow the first byte of a character of three bytes. -/
def mayFollowOfThree (first second : UInt8) : Bool :=
  isContinuation second && (first != 0xE0 || 0xA0 ≤ second) && (first != 0xED || second ≤ 0x9F)

/-- The bytes that may follow the first byte of a character of four bytes. -/
def mayFollowOfFour (first second : UInt8) : Bool :=
  isContinuation second && (first != 0xF0 || 0x90 ≤ second) && (first != 0xF4 || second ≤ 0x8F)

/-- The value of the last bits of a byte. -/
def low (bits : Nat) (b : UInt8) : Nat := b.toNat % Nat.pow 2 bits

/-- Decodes bytes, the first of which has the given index. -/
def decodeFrom (index : Nat) : List UInt8 → Except Utf8Error (List Char)
  | [] => .ok []
  | a :: rest =>
    if a < 0x80 then (decodeFrom (index + 1) rest).map (Char.ofNat a.toNat :: ·)
    else if 0xC2 ≤ a ∧ a ≤ 0xDF then
      match rest with
      | [] => .error (.incomplete index)
      | b :: rest =>
        if !isContinuation b then .error (.invalid index 1)
        else (decodeFrom (index + 2) rest).map (Char.ofNat (low 5 a * 64 + low 6 b) :: ·)
    else if 0xE0 ≤ a ∧ a ≤ 0xEF then
      match rest with
      | [] => .error (.incomplete index)
      | b :: rest =>
        if !mayFollowOfThree a b then .error (.invalid index 1)
        else
          match rest with
          | [] => .error (.incomplete index)
          | c :: rest =>
            if !isContinuation c then .error (.invalid index 2)
            else
              (decodeFrom (index + 3) rest).map
                (Char.ofNat ((low 4 a * 64 + low 6 b) * 64 + low 6 c) :: ·)
    else if 0xF0 ≤ a ∧ a ≤ 0xF4 then
      match rest with
      | [] => .error (.incomplete index)
      | b :: rest =>
        if !mayFollowOfFour a b then .error (.invalid index 1)
        else
          match rest with
          | [] => .error (.incomplete index)
          | c :: rest =>
            if !isContinuation c then .error (.invalid index 2)
            else
              match rest with
              | [] => .error (.incomplete index)
              | d :: rest =>
                if !isContinuation d then .error (.invalid index 3)
                else
                  (decodeFrom (index + 4) rest).map
                    (Char.ofNat (((low 3 a * 64 + low 6 b) * 64 + low 6 c) * 64 + low 6 d) :: ·)
    else .error (.invalid index 1)

/-- Decodes bytes. -/
def decode (bytes : List UInt8) : Except Utf8Error String :=
  (decodeFrom 0 bytes).map .ofList

/-- The longest start of a text that has at most `n` bytes. -/
def takeBytes (n : Nat) : List Char → List Char
  | [] => []
  | c :: rest => if c.utf8Size ≤ n then c :: takeBytes (n - c.utf8Size) rest else []

theorem takeBytes_zero (cs : List Char) : takeBytes 0 cs = [] := by
  cases cs with
  | nil => rfl
  | cons c cs => exact if_neg (Nat.not_le.mpr c.utf8Size_pos)

theorem takeBytes_eq_take {cs : List Char} (ascii : ∀ c ∈ cs, c.utf8Size = 1) (n : Nat) :
    takeBytes n cs = cs.take n := by
  induction cs generalizing n with
  | nil => simp [takeBytes]
  | cons c rest ih =>
    have one := ascii c (by simp)
    have below := ih fun d inRest => ascii d (by simp [inRest])
    cases n with
    | zero => simp [takeBytes, one]
    | succ n => simp [takeBytes, one, below]

end AssetPlan.Text
