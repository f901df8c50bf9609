import GameRoster.Registry

namespace GameRoster

/-- On whose behalf a variable is read. -/
structure Readers where
  character : Option String
  styles : List String
deriving Repr, DecidableEq

namespace Readers

/-- Nobody in particular: a variable only has to be defined. -/
def nobody : Readers := ⟨none, []⟩

def ofStyles (styles : List (Ref .style)) : Readers := ⟨none, styles.map Ref.text⟩

end Readers

namespace Variable

def ownedByCharacter (v : Variable) (id : String) : Bool := v.characters.any (·.text == id)

def ownedByStyle (v : Variable) (id : String) : Bool := v.styles.any (·.text == id)

/-- Whether a character may read the variable. -/
def readableByCharacter (v : Variable) (c : Character) (id : String) : Bool :=
  v.ownedByCharacter id || c.styles.all fun style => v.ownedByStyle style.text

/-- Whether a style may read the variable. -/
def readableByStyle (v : Variable) (s : Style) (id : String) : Bool :=
  v.ownedByStyle id || v.ownedByCharacter s.character.text

end Variable

namespace Registry

def checkCharacterReader (reg : Registry) (v : Variable) (loc : Location) (id : String) :
    Check Unit := do
  let c ← reg.findCharacter loc id
  if v.readableByCharacter c id then return ()
  else .error (.variable loc (.notOwned id v.id.text))

def checkStyleReader (reg : Registry) (v : Variable) (loc : Location) (id : String) :
    Check Unit := do
  let s ← reg.findStyle loc id
  if v.readableByStyle s id then return ()
  else .error (.variable loc (.notOwned id v.id.text))

def checkStyleReaders (reg : Registry) (v : Variable) (loc : Location) : List String → Check Unit
  | [] => .ok ()
  | id :: rest => do
    reg.checkStyleReader v loc id
    checkStyleReaders reg v loc rest

/-- Checks that every reader may read a variable: the character first, then the styles. -/
def checkReaders (reg : Registry) (v : Variable) (readers : Readers) (loc : Location) :
    Check Unit :=
  if v.unrestricted then .ok ()
  else do
    if let some id := readers.character then reg.checkCharacterReader v loc id
    reg.checkStyleReaders v loc readers.styles

/-- Checks a setting, and every value of a binding with `each`. -/
def checkSettingWith {α : Type} (reg : Registry) (each : Location → α → Check Unit)
    (readers : Readers) (loc : Location) : Setting α → Check Unit
  | .fixed _ => .ok ()
  | .bound id values => do
    let v ← reg.findVariable loc id.text
    reg.checkReaders v readers loc
    if v.maxLevel + 1 ≠ values.length then
      .error (.variable loc (.valueCount id.text (v.maxLevel + 1)))
    loc.checkEach each values

def checkSetting {α : Type} (reg : Registry) : Readers → Location → Setting α → Check Unit :=
  reg.checkSettingWith fun _ _ => .ok ()

/-- An index must be a level of its variable. -/
def checkIndex (v : Variable) (loc : Location) (index : Int) : Check Unit :=
  if (v.maxLevel : Int) < index then .error (.variable loc (.indexLimit v.maxLevel)) else .ok ()

/-- Checks every variable of an index table and every index into it. -/
def checkIndexTable (reg : Registry) (readers : Readers) (loc : Location) :
    IndexTable → Check Unit
  | [] => .ok ()
  | (id, indexes) :: rest => do
    let v ← reg.findVariable loc id.text
    reg.checkReaders v readers loc
    (loc.key id.text).checkEach (checkIndex v) indexes
    checkIndexTable reg readers loc rest

end Registry

end GameRoster
