import MessageCatalog.Text.Basic

/-!
# UTF-8

Reading a text from its bytes. A sequence of bytes that is no character is refused with its place
and its length: the longest run that could have begun a character, at least one byte. Bytes that end
inside a character are refused as incomplete.
-/

namespace MessageCatalog.Text

/-- Why bytes are no text. -/
inductive Utf8Error where
  /-- The `length` bytes at `index` begin no character. -/
  | invalid (index length : Nat)
  /-- The bytes end inside the character that begins at `index`. -/
  | incomplete (index : Nat)
  deriving DecidableEq, Repr

/-- The text of a UTF-8 error. -/
def Utf8Error.message : Utf8Error → String
  | .invalid index length => s!"invalid utf-8 sequence of {length} bytes from index {index}"
  | .incomplete index => s!"incomplete utf-8 byte sequence from index {index}"

namespace Utf8

/-- What the first byte of a character says: the number of bytes after it, the range of the next
one, and its own bits of the code point. -/
structure Lead where
  more : Nat
  low : Nat
  high : Nat
  bits : Nat
  deriving DecidableEq, Repr

/-- Read the first byte of a character. -/
def lead? (b : Nat) : Option Lead :=
  if 0xC2 ≤ b ∧ b ≤ 0xDF then some ⟨1, 0x80, 0xBF, b - 0xC0⟩
  else if b = 0xE0 then some ⟨2, 0xA0, 0xBF, 0⟩
  else if b = 0xED then some ⟨2, 0x80, 0x9F, 0xD⟩
  else if 0xE1 ≤ b ∧ b ≤ 0xEF then some ⟨2, 0x80, 0xBF, b - 0xE0⟩
  else if b = 0xF0 then some ⟨3, 0x90, 0xBF, 0⟩
  else if 0xF1 ≤ b ∧ b ≤ 0xF3 then some ⟨3, 0x80, 0xBF, b - 0xF0⟩
  else if b = 0xF4 then some ⟨3, 0x80, 0x8F, 4⟩
  else none

/-- Read the bytes after the first one. `more` bytes of the character at `index` are left, `taken`
have been read and give the code point `bits` so far, and the next one lies in the given range. -/
def continuation (index : Nat) :
    (more taken low high bits : Nat) → List UInt8 → Except Utf8Error (Nat × List UInt8)
  | 0, _, _, _, bits, rest => .ok (bits, rest)
  | _ + 1, _, _, _, _, [] => .error (.incomplete index)
  | more + 1, taken, low, high, bits, b :: rest =>
    if low ≤ b.toNat ∧ b.toNat ≤ high then
      continuation index more (taken + 1) 0x80 0xBF (bits * 64 + (b.toNat - 0x80)) rest
    else .error (.invalid index taken)

/-- The bytes after a character are some of those before. -/
theorem continuation_length {index more taken low high bits code : Nat} {bytes rest : List UInt8}
    (h : continuation index more taken low high bits bytes = .ok (code, rest)) :
    rest.length ≤ bytes.length := by
  induction more generalizing taken low high bits bytes with
  | zero =>
    obtain ⟨_, rfl⟩ : bits = code ∧ bytes = rest := by simpa [continuation] using h
    exact Nat.le_refl _
  | succ more ih =>
    cases bytes with
    | nil => simp [continuation] at h
    | cons b bytes =>
      unfold continuation at h
      split at h
      · have := ih h
        simp only [List.length_cons]
        omega
      · simp at h

/-- Read the characters of some bytes, the first of which is at `index`. -/
def decodeFrom (index : Nat) (bytes : List UInt8) : Except Utf8Error Text :=
  match bytes with
  | [] => .ok []
  | b :: rest =>
    if b.toNat < 0x80 then (decodeFrom (index + 1) rest).map (Char.ofNat b.toNat :: ·)
    else
      match lead? b.toNat with
      -- a byte that begins nothing is refused by itself
      | none => .error (.invalid index 1)
      | some lead =>
        match hc : continuation index lead.more 1 lead.low lead.high lead.bits rest with
        | .error e => .error e
        | .ok (code, after) =>
          have := continuation_length hc
          (decodeFrom (index + 1 + lead.more) after).map (Char.ofNat code :: ·)
termination_by bytes.length

/-- Read a text from its bytes. -/
def decode (bytes : List UInt8) : Except Utf8Error Text := decodeFrom 0 bytes

/-- The bytes of a text. -/
def encode (t : Text) : List UInt8 := t.flatMap String.utf8EncodeChar

end Utf8

end MessageCatalog.Text
