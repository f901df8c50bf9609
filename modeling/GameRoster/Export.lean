import GameRoster.Registry.Verification
import GameRoster.Value.Printer

namespace GameRoster

/-- Where a record stands. -/
structure Span where
  offset : Nat
  length : Nat
deriving Repr, DecidableEq

structure Artifacts where
  symbols : String
  index : String
  data : String
deriving Repr, DecidableEq

namespace Export

def head : String := "[\r\n"

def separator : String := ",\r\n"

def tail : String := "\r\n]"

/-- The places of records that follow each other, the first of them at `offset`. -/
def spansFrom : Nat → List String → List Span
  | _, [] => []
  | offset, record :: rest =>
    let length := record.utf8ByteSize
    ⟨offset, length⟩ :: spansFrom (offset + length + separator.utf8ByteSize) rest

def spans (records : List String) : List Span := spansFrom head.utf8ByteSize records

def data (records : List String) : String :=
  head ++ separator.intercalate records ++ tail

def Span.toValue (span : Span) : Value := .array [.nat span.offset, .nat span.length]

/-- The place of every record by the id of its resource. -/
def index (ids records : List String) : Value :=
  .object (ids.zip ((spans records).map Span.toValue))

end Export

namespace Registry

/-- The symbols to write: extra ones first, as they are given, then those of the ids. -/
def allSymbols (reg : Registry) (extra : List String) : List String := extra ++ reg.symbols

def artifacts (reg : Registry) (extra : List String) : Artifacts :=
  let records := reg.resources.map Resource.record
  { symbols := (Value.strings (reg.allSymbols extra)).render
    index := (Export.index (reg.resources.map Resource.id) records).render
    data := Export.data records }

/-- Only a registry that verifies is written. -/
def render (reg : Registry) (extra : List String) : Check Artifacts := do
  reg.verify
  return reg.artifacts extra

end Registry

/-- Counts of what was written. -/
structure ExportSummary where
  resources : Nat
  symbols : Nat
  bytes : Nat
deriving Repr, DecidableEq

namespace ExportSummary

def of (reg : Registry) (extra : List String) (artifacts : Artifacts) : ExportSummary where
  resources := reg.resources.length
  symbols := extra.length + reg.symbols.length
  bytes := artifacts.data.utf8ByteSize

end ExportSummary

end GameRoster
