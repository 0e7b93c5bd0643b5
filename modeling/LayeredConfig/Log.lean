import LayeredConfig.Fault
import LayeredConfig.Text.Casing
import LayeredConfig.Value.Basic

/-!
# Events

What a run reports about itself while it goes on. A traced computation ends in a result or a fault
and keeps the events up to that point either way.
-/

namespace LayeredConfig

inductive Level
  | debug
  | info
  | error
  deriving DecidableEq, Repr, Inhabited

/-- A severer level has a higher rank. -/
def Level.rank : Level → Nat
  | debug => 10
  | info => 20
  | error => 40

def Level.text : Level → String
  | debug => "DEBUG"
  | info => "INFO"
  | error => "ERROR"

/-- The level of a name, in any case of its letters. -/
def Level.ofText? (text : String) : Option Level :=
  [debug, info, error].find? fun level => level.text == Text.upper text

structure Event where
  level : Level
  message : String
  fields : Entries Value
  deriving Repr, Inhabited

namespace Event

/-- The fields of an event about a source; fields of the payload win. -/
def fieldsFor (source : Value) (name : Value) (payload : Entries Value) : Entries Value :=
  Entries.ofPairs (("source", source) :: ("name", name) :: payload)

/-- A debugging event about a source of some kind. -/
def about (level : Level) (message source : String) (name : Option String)
    (payload : Entries Value) : Event :=
  { level, message
    fields := fieldsFor (.text source) ((name.map .text).getD .null) payload }

/-- The event with the identifier of the trace it belongs to in front. -/
def stamp (trace : Option String) (event : Event) : Event :=
  { event with
    fields := Entries.ofPairs (("trace_id", (trace.map .text).getD .null) :: event.fields) }

end Event

/-- A computation with its events. -/
structure Traced (α : Type) where
  events : List Event
  result : Except Fault α

namespace Traced

variable {α β : Type}

def pure (a : α) : Traced α := ⟨[], .ok a⟩

def bind (x : Traced α) (f : α → Traced β) : Traced β :=
  match x.result with
  | .ok a => ⟨x.events ++ (f a).events, (f a).result⟩
  | .error fault => ⟨x.events, .error fault⟩

instance : Monad Traced where
  pure := pure
  bind := bind

theorem result_bind (x : Traced α) (f : α → Traced β) :
    (x >>= f).result = x.result.bind fun a => (f a).result := by
  obtain ⟨events, result⟩ := x
  cases result <;> rfl

theorem result_map (f : α → β) (x : Traced α) : (f <$> x).result = x.result.map f := by
  obtain ⟨events, result⟩ := x
  cases result <;> rfl

/-- A computation without events. -/
def ofExcept (result : Except Fault α) : Traced α := ⟨[], result⟩

instance : MonadLift (Except Fault) Traced := ⟨ofExcept⟩

def fail (fault : Fault) : Traced α := ⟨[], .error fault⟩

instance : Inhabited (Traced α) := ⟨fail default⟩

def emit (event : Event) : Traced Unit := ⟨[event], .ok ()⟩

/-- Goes on after a fault; the events up to it stay. -/
def handle (x : Traced α) (f : Fault → Traced α) : Traced α :=
  match x.result with
  | .ok _ => x
  | .error fault => ⟨x.events ++ (f fault).events, (f fault).result⟩

end Traced

end LayeredConfig
