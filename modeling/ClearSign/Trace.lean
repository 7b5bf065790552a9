import ClearSign.Domain
import ClearSign.Error
import ClearSign.Request

namespace ClearSign

inductive Event
  | matchedDomain (domain : Domain)
  | classifiedMessage (kind : Request.Kind) (length : Nat)
  | readPayloadKind (kind : Payload.Kind)
  | classifiedCall (callee : Callee)
  | accepted (kind : Request.Kind)
  | refused (error : DecodeError)
  deriving DecidableEq, Repr

namespace Event

def level : Event → String
  | accepted _ => "DEBUG"
  | refused _ => "DEBUG"
  | _ => "TRACE"

def message : Event → String
  | matchedDomain .rawTransaction => "matched RawTransaction prefix"
  | matchedDomain .rawTransactionWithData => "matched RawTransactionWithData prefix"
  | classifiedMessage .. => "no transaction prefix, classified as message"
  | readPayloadKind _ => "payload variant"
  | classifiedCall _ => "classified entry function"
  | accepted _ => "parsing status"
  | refused _ => "parsing status"

def fields : Event → List (String × String)
  | matchedDomain _ => []
  | classifiedMessage kind length => [("variant", kind.name), ("len", toString length)]
  | readPayloadKind kind => [("variant", kind.name)]
  | classifiedCall callee => [("known", callee.name)]
  | accepted kind => [("status", Status.ok.name), ("variant", kind.name)]
  | refused error => [("status", error.status.name), ("error", error.message)]

end Event

/-- The outcome of a stage of decoding, and the events recorded up to it. -/
structure Traced (α : Type) where
  events : List Event
  result : Except DecodeError α

namespace Traced

def succeed (a : α) : Traced α := ⟨[], .ok a⟩

def fail (e : DecodeError) : Traced α := ⟨[], .error e⟩

def record (event : Event) : Traced Unit := ⟨[event], .ok ()⟩

def ofExcept (result : Except DecodeError α) : Traced α := ⟨[], result⟩

def andThen (t : Traced α) (next : α → Traced β) : Traced β :=
  match t.result with
  | .ok a => ⟨t.events ++ (next a).events, (next a).result⟩
  | .error e => ⟨t.events, .error e⟩

instance : Monad Traced where
  pure := succeed
  bind := andThen

instance : MonadLift (Except DecodeError) Traced where
  monadLift := ofExcept

@[simp] theorem pure_eq (a : α) : (pure a : Traced α) = ⟨[], .ok a⟩ := rfl

@[simp] theorem ok_bind (events : List Event) (a : α) (next : α → Traced β) :
    ((⟨events, .ok a⟩ : Traced α) >>= next) =
      ⟨events ++ (next a).events, (next a).result⟩ := rfl

@[simp] theorem error_bind (events : List Event) (e : DecodeError) (next : α → Traced β) :
    ((⟨events, .error e⟩ : Traced α) >>= next) = ⟨events, .error e⟩ := rfl

theorem result_bind (t : Traced α) (next : α → Traced β) :
    (t >>= next).result = t.result >>= fun a => (next a).result := by
  obtain ⟨events, result⟩ := t
  cases result <;> rfl

end Traced

end ClearSign
