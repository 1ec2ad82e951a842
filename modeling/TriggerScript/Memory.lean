import TriggerScript.Number

/-!
# Memory reads

A condition looks at the memory of a game through reads of a fixed size at a fixed address, in the current frame or in
relation to an earlier one.
-/

namespace TriggerScript

/-- How much memory a read looks at. -/
inductive MemorySize where
  | bit0
  | bit1
  | bit2
  | bit3
  | bit4
  | bit5
  | bit6
  | bit7
  | low4
  | high4
  | byte
  | word
  | tbyte
  | dword
  | bitcount
  deriving DecidableEq, Repr

namespace MemorySize

/-- Every size. -/
def all : List MemorySize :=
  [.bit0, .bit1, .bit2, .bit3, .bit4, .bit5, .bit6, .bit7, .low4, .high4, .byte, .word, .tbyte, .dword, .bitcount]

/-- The function of a script that reads this size. -/
def functionName : MemorySize → String
  | .bit0 => "bit0"
  | .bit1 => "bit1"
  | .bit2 => "bit2"
  | .bit3 => "bit3"
  | .bit4 => "bit4"
  | .bit5 => "bit5"
  | .bit6 => "bit6"
  | .bit7 => "bit7"
  | .low4 => "low4"
  | .high4 => "high4"
  | .byte => "byte"
  | .word => "word"
  | .tbyte => "tbyte"
  | .dword => "dword"
  | .bitcount => "bitcount"

/-- The size that a function of a script reads. -/
def ofFunctionName? (name : String) : Option MemorySize :=
  all.find? (·.functionName = name)

/-- The size that reads the bit with an index. -/
def bit? (index : Int) : Option MemorySize :=
  if index < 0 then none
  else [MemorySize.bit0, .bit1, .bit2, .bit3, .bit4, .bit5, .bit6, .bit7][index.toNat]?

/-- The letter of a size in the wire format; a blank is a word. -/
def letter : MemorySize → Char
  | .bit0 => 'M'
  | .bit1 => 'N'
  | .bit2 => 'O'
  | .bit3 => 'P'
  | .bit4 => 'Q'
  | .bit5 => 'R'
  | .bit6 => 'S'
  | .bit7 => 'T'
  | .low4 => 'L'
  | .high4 => 'U'
  | .byte => 'H'
  | .word => ' '
  | .tbyte => 'W'
  | .dword => 'X'
  | .bitcount => 'K'

/-- The size with a letter, in either case. -/
def ofLetter? (c : Char) : Option MemorySize :=
  all.find? (·.letter = c.toUpper)

end MemorySize

/-- Which frame a read looks at, and how it takes the bits. -/
inductive ReadMode where
  /-- The value in the current frame. -/
  | current
  /-- The value in the frame before. -/
  | previous
  /-- The value before its last change. -/
  | prior
  /-- The value in the current frame, as binary-coded decimal digits. -/
  | decimal
  deriving DecidableEq, Repr

/-- The function of a script that gives a read this mode. -/
def ReadMode.functionName? : ReadMode → Option String
  | .current => none
  | .previous => some "prev"
  | .prior => some "prior"
  | .decimal => some "bcd"

/-- The letter before a read of this mode in the wire format. -/
def ReadMode.letter? : ReadMode → Option Char
  | .current => none
  | .previous => some 'd'
  | .prior => some 'p'
  | .decimal => some 'b'

/-- A read of memory. -/
structure MemoryRead where
  /-- Which frame is read. -/
  mode : ReadMode
  /-- How much is read. -/
  size : MemorySize
  /-- Where it is read. -/
  address : UInt32
  deriving DecidableEq, Repr

namespace MemoryRead

/-- A read in the current frame. -/
def ofSize (size : MemorySize) (address : UInt32) : MemoryRead :=
  { mode := .current, size, address }

/-- A read as a script spells it. -/
def render (read : MemoryRead) : String :=
  let digits := String.ofList ((Text.hexDigits 6 read.address.toNat).map Char.toUpper)
  let plain := read.size.functionName ++ "(0x" ++ digits ++ ")"
  match read.mode.functionName? with
  | some wrapper => wrapper ++ "(" ++ plain ++ ")"
  | none => plain

/-- A read in the wire format. -/
def wire (read : MemoryRead) : String :=
  let mode := String.ofList read.mode.letter?.toList
  mode ++ "0x" ++ String.singleton read.size.letter ++ String.ofList (Text.hexDigits 6 read.address.toNat)

end MemoryRead

end TriggerScript
