import Allotment.Encoding.Workload
import Allotment.Notice
/-!
# Outcomes and notices as documents

* `Outcome.toJson` writes an outcome; an error is left out when there is none.
* `Notice.toJson` writes one line of the journal: its level, its message and its particulars.
-/

namespace Allotment

namespace Outcome

def toJson (o : Outcome) : Json :=
  .record
    ([("key", .string o.key), ("kind", .string o.kind.name), ("changes", .list (o.changes.map Change.toJson))] ++
      (o.error.toList.map fun e => ("error", .string e)))

end Outcome

namespace Particular

def toJson : Particular → Json
  | text s => .string s
  | flag b => .bool b

end Particular

namespace Notice

def toJson (n : Notice) : Json :=
  .record
    ([("level", .string n.level.name), ("message", .string n.message)] ++
      n.fields.map fun (name, p) => (name, p.toJson))

end Notice

end Allotment
