import ChatApp.Lib.Bytes
import ChatApp.Lib.Run
import ChatApp.Lib.Terminal

set_option autoImplicit false

/-! # The console (`console/console.h`, `console/console.cpp`)

One thread reads lines with `Console::read` while others write with `Console::write`. Each
critical section is a function here: the start of a `read`, what it does with a character,
and a `write`. Each says what becomes of the two strings the console keeps and what is printed.
`ConsoleSession` is the console with the terminal that shows what it prints.
-/

namespace ChatApp

open Lib

/-- What the console keeps: the prompt of the read under way, and what has been typed. -/
structure Console where
  prompt : Bytes := []
  userInput : Bytes := []
  deriving Repr, DecidableEq

namespace Console

def kDelete : Int := 0x7F

def kNewLine : Int := 0x0A

/-- `static_cast<char>(n)`. -/
def toChar (n : Int) : UInt8 := UInt8.ofNat (n % 256).toNat

/-- The first critical section of `read`: the console, and what is printed. -/
def readPrompt (c : Console) (prompt : Bytes) : Console × Bytes :=
  ({ c with prompt := prompt }, prompt)

/-- What `read` does with a character: the console, what is printed, and the string it returns,
if it does. -/
def readChar (c : Console) (nextChar : Int) : Console × Bytes × Option Bytes :=
  if nextChar = kDelete then
    if c.userInput = [] then (c, [], none)
    else ({ c with userInput := c.userInput.dropLast }, [0x08, 0x20, 0x08], none)
  else if nextChar = kNewLine then
    ({ prompt := [], userInput := [] }, [0x0A], some c.userInput)
  else
    ({ c with userInput := c.userInput ++ [toChar nextChar] }, [toChar nextChar], none)

theorem toChar_toNat (c : UInt8) : toChar c.toNat = c := by
  have hlt : c.toNat < 256 := c.toNat_lt
  have hmod : ((c.toNat : Int) % 256).toNat = c.toNat := by omega
  unfold toChar
  rw [hmod, UInt8.ofNat_toNat]

/-- `readChar` on a byte. -/
theorem readChar_toNat (c : Console) (key : UInt8) :
    c.readChar key.toNat
      = if key = 0x7F then
          if c.userInput = [] then (c, [], none)
          else ({ c with userInput := c.userInput.dropLast }, [0x08, 0x20, 0x08], none)
        else if key = 0x0A then ({ prompt := [], userInput := [] }, [0x0A], some c.userInput)
        else ({ c with userInput := c.userInput ++ [key] }, [key], none) := by
  have hdelete : (key.toNat : Int) = kDelete ↔ key = 0x7F := by
    rw [← UInt8.toNat_inj]
    show (key.toNat : Int) = 127 ↔ key.toNat = 127
    omega
  have hnewline : (key.toNat : Int) = kNewLine ↔ key = 0x0A := by
    rw [← UInt8.toNat_inj]
    show (key.toNat : Int) = 10 ↔ key.toNat = 10
    omega
  unfold readChar
  simp only [hdelete, hnewline, toChar_toNat]

/-- The blanks that `std::setw(n) << ""` prints. `setw` takes an `int`; there is no padding for
a negative one. -/
def setw (n : Nat) : Bytes := List.replicate (toInt32 n).toNat 0x20

/-- What `write` prints. -/
def write (c : Console) (s : Bytes) : Bytes :=
  let currentInputSize := c.prompt.length + c.userInput.length
  if currentInputSize = 0 then s ++ [0x0A]
  else 0x0D :: setw currentInputSize ++ 0x0D :: s ++ 0x0A :: (c.prompt ++ c.userInput)

end Console

/-! ## A session -/

/-- The console, whether a `read` is under way, and the terminal. -/
structure ConsoleSession where
  console : Console := {}
  reading : Bool := false
  screen : Screen UInt8 := {}
  deriving Repr, DecidableEq

/-- A critical section: the reader begins a read or takes a character, or some thread writes. -/
inductive ConsoleEvent
  | read (prompt : Bytes)
  | typed (c : UInt8)
  | write (s : Bytes)
  deriving Repr, DecidableEq

namespace ConsoleSession

/-- What is in an empty cell. -/
def blank : UInt8 := 0x20

/-- The terminal after the bytes printed. -/
def display (screen : Screen UInt8) (out : Bytes) : Screen UInt8 :=
  screen.feed blank (out.map Control.ofByte)

/-- One step, with the string that a read returns. A read begins when none is under way, and a
character is taken only by one that is. -/
def step (s : ConsoleSession) : ConsoleEvent → Except Unit (ConsoleSession × Option Bytes)
  | .read prompt =>
      if s.reading then .error ()
      else
        let (console, out) := s.console.readPrompt prompt
        return ({ console := console, reading := true, screen := display s.screen out }, none)
  | .typed c =>
      if s.reading then
        let (console, out, returned) := s.console.readChar c.toNat
        return ({ console := console, reading := returned.isNone,
                  screen := display s.screen out }, returned)
      else .error ()
  | .write str => return ({ s with screen := display s.screen (s.console.write str) }, none)

end ConsoleSession

end ChatApp
