import CycleBridge.Event

/-!
# Log filters

A filter is a list of rules. Each rule is about all events or some of them and sets how urgent these
must be. Of the rules that apply to an event the most particular one decides, and of two equally
particular ones the later.
-/

namespace CycleBridge

/-- What is asked of one field: that it is there, or that it has a value. -/
structure LogField where
  name : String
  value : Option String := none
  deriving DecidableEq, Repr

/-- A rule of a log: the events it is about and how urgent they must be to be shown. Without a
threshold it shows none of them. -/
structure LogRule where
  component : Option String := none
  span : Option String := none
  field : Option LogField := none
  threshold : Option Severity := some .trace
  deriving DecidableEq, Repr

namespace LogField

/-- Whether an event has what is asked of a field. Values are only known of the fields of a span,
and no event has one of these. The message counts as a field. -/
def holdsOf (f : LogField) (e : Event) : Bool :=
  f.value.isNone && (f.name = "message" || (e.fields.lookup f.name).isSome)

end LogField

namespace LogRule

/-- Whether a rule is about an event. A component is named by the beginning of its name. Events are
reported outside any span, so a rule about a span is about none. -/
def appliesTo (r : LogRule) (e : Event) : Bool :=
  r.span.isNone && r.component.all (·.toList.isPrefixOf e.component.toList) &&
    r.field.all (·.holdsOf e)

/-- How much of a component's name a rule gives; less than none of it if it names no component. -/
def reach (r : LogRule) : Nat :=
  match r.component with
  | none => 0
  | some name => name.length + 1

/-- Compares how particular two rules are: first by the component, then by the field, where the name
that comes later in the alphabet wins. -/
def comparePrecedence (r s : LogRule) : Ordering :=
  (compare r.reach s.reach).then (compare (r.field.map (·.name)) (s.field.map (·.name)))

/-- The rule that decides if both apply and the second comes later. -/
def moreParticular (r s : LogRule) : LogRule := if r.comparePrecedence s = .gt then r else s

end LogRule

/-- The rules of a log in their order. -/
structure LogFilter where
  rules : List LogRule
  deriving DecidableEq, Repr

namespace LogFilter

/-- The rule that decides on an event, if one applies. -/
def ruleFor? (f : LogFilter) (e : Event) : Option LogRule :=
  (f.rules.filter (·.appliesTo e)).foldl
    (fun best r => some (best.elim r (·.moreParticular r))) none

/-- Whether an event is shown. -/
def shows (f : LogFilter) (e : Event) : Bool :=
  ((f.ruleFor? e).bind (·.threshold)).any fun t => e.passes t

/-- The filter that shows all events which are urgent enough. -/
def ofSeverity (threshold : Severity) : LogFilter := ⟨[{ threshold := some threshold }]⟩

/-- The filter where none is set. -/
def usual : LogFilter := ofSeverity .info

end LogFilter

end CycleBridge
