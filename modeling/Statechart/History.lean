import Statechart.Action.Program
import Statechart.Json.Document.Printer
import Statechart.Json.Document.Reader
import Statechart.Path.Json
import Statechart.Timestamp.Reader

/-!
# History records

A history record is what a transition left, together with the time. In JSON its
fields are `value`, the path in nested form, `event`, and `recorded_at`, the
time in writing.
-/

namespace Statechart

open Json (Document)

/-- **What a transition left, and when.** -/
structure HistoryRecord extends Departure where
  /-- When the transition began. -/
  recordedAt : Timestamp
deriving DecidableEq, Repr, Inhabited

namespace HistoryRecord

/-- The record of a departure at a time. -/
def capture (value : Path) (event : String) (time : Timestamp) : HistoryRecord :=
  { value, event, recordedAt := time }

/-- **The document of a record.** -/
def toDocument (history : HistoryRecord) : Document :=
  .record [("value", history.value.nestedDocument), ("event", .text history.event),
    ("recorded_at", .text history.recordedAt.text)]

/-- The record that a document describes. -/
def ofDocument? (document : Document) : Option HistoryRecord := do
  match ← document.fields? ["value", "event", "recorded_at"] with
  | [value, .string event, .string time] =>
    return {
      value := ← Path.ofNestedDocument? (Document.deepest - 1) value
      event := ← event
      recordedAt := ← Timestamp.ofText? (← time) }
  | _ => none

/-- **The record that a text describes.** -/
def ofText? (text : String) : Option HistoryRecord := (Document.ofText? text).bind ofDocument?

end HistoryRecord

end Statechart
