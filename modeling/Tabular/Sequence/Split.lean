import Tabular.Definition.Parts
import Tabular.Definition.Cell
import Tabular.Sequence.Gap
import Tabular.Sequence.Length

namespace Tabular

inductive SequenceSplit where
  | length (s : LengthSplit)
  | gap (s : GapSplit)
deriving DecidableEq

namespace SequenceSplit

def validate (s : SequenceSplit) (schema : Schema) : Except Error Unit :=
  match s with
  | length _ => .ok ()
  | gap g => (g.timePosition schema).map fun _ => ()

/-- Cuts a sequence; the pieces together are the sequence. -/
def split (s : SequenceSplit) (schema : Schema) (steps : List Row) :
    Except Error (List (List Row)) :=
  match s with
  | length l => .ok (l.split steps)
  | gap g => g.split schema steps

def text : SequenceSplit → String
  | length l => l.text
  | gap g => g.text

def toDefinition : SequenceSplit → Definition
  | length l =>
    [("equalSplits", .boolean l.equal), ("maxSequenceLength", .whole l.maxLength),
      ("type", .text "SplitMaxLengthSequence")]
  | gap g =>
    [("maxGap", .whole g.maxGap.toInt), ("timeColumn", .text g.timeColumn),
      ("type", .text "SplitTimeSeparation")]

/-- The length split in a definition; lengths are 64-bit sizes. -/
def lengthOf? (d : Definition) : Option (Except Error SequenceSplit) := do
  let size ← (← d.lookup "maxSequenceLength").wholeIn? 0 0xffffffffffffffff
  let equal ← (← d.lookup "equalSplits").boolean?
  return (LengthSplit.ofSize size.toNat.toUInt64 equal).map .length

def gapOf? (d : Definition) : Option (Except Error SequenceSplit) := do
  let timeColumn ← (← d.lookup "timeColumn").text?
  let maxGap ← (← d.lookup "maxGap").int64?
  return (GapSplit.ofGap timeColumn maxGap).map .gap

def ofDefinition (d : Definition) : Except Error SequenceSplit :=
  let read : Option (Except Error SequenceSplit) :=
    match d.lookup "type" with
    | some (.text "SplitMaxLengthSequence") => lengthOf? d
    | some (.text "SplitTimeSeparation") => gapOf? d
    | _ => none
  match read with
  | some result => result
  | none => .error .malformedDefinition

end SequenceSplit

end Tabular
