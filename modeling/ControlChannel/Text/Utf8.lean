/-!
UTF-8 both ways. Decoding names the first place where the bytes leave the encoding: a sequence
that no continuation can mend, with the length of its valid start, or one that the input ends
inside. Main content: `encode`, `decode`, and `Fault.message` for the wording.
-/

namespace ControlChannel.Text.Utf8

/-- Why bytes are not UTF-8. -/
inductive Fault where
  /-- From `start` on, `length` bytes begin a sequence that the next byte makes invalid. -/
  | invalid (start length : Nat)
  /-- The input ends inside the sequence that begins at `start`. -/
  | incomplete (start : Nat)
  deriving DecidableEq, Repr

def Fault.message : Fault → String
  | .invalid start length =>
    s!"invalid utf-8 sequence of {length} bytes from index {start}"
  | .incomplete start => s!"incomplete utf-8 byte sequence from index {start}"

/-- What the first byte of a longer sequence fixes: its own bits, how many bytes follow and the
range of the next one. -/
structure Lead where
  bits : Nat
  tails : Nat
  low : UInt8
  high : UInt8
  deriving Repr

def lead? (b : UInt8) : Option Lead :=
  if 0xc2 ≤ b ∧ b ≤ 0xdf then some ⟨b.toNat - 0xc0, 1, 0x80, 0xbf⟩
  else if b = 0xe0 then some ⟨0, 2, 0xa0, 0xbf⟩
  else if b = 0xed then some ⟨0xd, 2, 0x80, 0x9f⟩
  else if 0xe1 ≤ b ∧ b ≤ 0xef then some ⟨b.toNat - 0xe0, 2, 0x80, 0xbf⟩
  else if b = 0xf0 then some ⟨0, 3, 0x90, 0xbf⟩
  else if 0xf1 ≤ b ∧ b ≤ 0xf3 then some ⟨b.toNat - 0xf0, 3, 0x80, 0xbf⟩
  else if b = 0xf4 then some ⟨4, 3, 0x80, 0x8f⟩
  else none

/-- A byte after the second one of a sequence. -/
def isTail (b : UInt8) : Bool := 0x80 ≤ b && b ≤ 0xbf

/-- The code point so far, lengthened by the six bits of a following byte. -/
def extend (bits : Nat) (b : UInt8) : Nat := bits * 64 + (b.toNat - 0x80)

/-- The characters of the bytes, which start at index `start` of the whole input. -/
def decodeFrom (start : Nat) : List UInt8 → Except Fault (List Char)
  | [] => .ok []
  | b :: rest =>
    if b < 0x80 then do
      return Char.ofNat b.toNat :: (← decodeFrom (start + 1) rest)
    else match lead? b with
      | none => .error (.invalid start 1)
      | some lead =>
        match rest with
        | [] => .error (.incomplete start)
        | b1 :: rest =>
          if b1 < lead.low || lead.high < b1 then .error (.invalid start 1)
          else if lead.tails = 1 then do
            return Char.ofNat (extend lead.bits b1) :: (← decodeFrom (start + 2) rest)
          else match rest with
            | [] => .error (.incomplete start)
            | b2 :: rest =>
              if !isTail b2 then .error (.invalid start 2)
              else if lead.tails = 2 then do
                return Char.ofNat (extend (extend lead.bits b1) b2)
                  :: (← decodeFrom (start + 3) rest)
              else match rest with
                | [] => .error (.incomplete start)
                | b3 :: rest =>
                  if !isTail b3 then .error (.invalid start 3)
                  else do
                    return Char.ofNat (extend (extend (extend lead.bits b1) b2) b3)
                      :: (← decodeFrom (start + 4) rest)

/-- The text that the bytes encode. -/
def decode (bytes : List UInt8) : Except Fault String :=
  (decodeFrom 0 bytes).map String.ofList

/-- The bytes of a text. -/
def encode (s : String) : List UInt8 := s.toList.flatMap String.utf8EncodeChar

end ControlChannel.Text.Utf8
