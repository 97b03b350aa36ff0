/-
Settings of the host and of the emitted text, and the file they are kept in.
-/

import Stagecraft.Decimal.Layout
import Stagecraft.Decimal.Reading
import Stagecraft.Ini.Reading
import Stagecraft.Lua.Printer

namespace Stagecraft

structure Settings where
  /-- Ticks in a second. -/
  rate : Float
  layout : Lua.Layout

namespace Settings

def standard : Settings where
  rate := Float.ofNat 60
  layout := ⟨4, 0⟩

/-- Where settings are kept if no other file is named. -/
def standardPath : String := "./scenelogic.ini"

/-! ### Reading -/

/-- Settings changed by what a file says. A value that cannot be read changes nothing. -/
def update (settings : Settings) (entries : List Ini.Entry) : Settings :=
  let number? (key : String) : Option Nat :=
    (Ini.value? entries "emit" key).bind (Decimal.readBelow? (Nat.pow 2 64))
  { rate := ((Ini.value? entries "host" "tick_rate").bind Decimal.read?).getD settings.rate
    layout := {
      indentWidth := (number? "indent_width").getD settings.layout.indentWidth
      offset := (number? "offset").getD settings.layout.offset } }

/-- What is reported of a file that cannot be loaded. -/
def loadMessage (path reason : String) : String :=
  "Failed to load config file: couldn't read " ++ path ++ ": " ++ reason

/-- Settings changed by the text of a file, which is given as the reason where there is none. -/
def load (settings : Settings) (path : String) (text : Except String String) :
    Except String Settings :=
  match text with
  | .error reason => .error (loadMessage path reason)
  | .ok text =>
    match Ini.read text with
    | .error fault => .error (loadMessage path fault.message)
    | .ok entries => .ok (settings.update entries)

/-! ### Writing -/

def lineOf (key value : String) : String :=
  key ++ "=" ++ value ++ "\n"

/-- The text of a file that holds the settings. -/
def write (settings : Settings) : String :=
  "[host]\n" ++ lineOf "tick_rate" (Decimal.text Decimal.plain settings.rate) ++
    "[emit]\n" ++ lineOf "indent_width" (toString settings.layout.indentWidth) ++
    lineOf "offset" (toString settings.layout.offset)

/-- What is reported where the settings cannot be saved. -/
def saveMessage (reason : String) : String :=
  "Failed to save config file: " ++ reason

end Settings

end Stagecraft
