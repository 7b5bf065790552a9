import ClearSign.Proofs.Deviations
import ClearSign.Proofs.Refusals

/-!
What the events tell. They say how far decoding got, and an error about the arguments of a call
comes only after its function was classified. Of a request that is accepted they tell its kind, the
kind of its payload and its function, or the length of a message: addresses, names, amounts and
bodies leave no mark in them.
-/

namespace ClearSign

def DecodeError.callee? : DecodeError → Option Callee
  | unexpectedTypeTag callee .. => some callee
  | typeArgCountMismatch callee .. => some callee
  | coinTypeArgCountMismatch callee _ => some callee
  | argCountMismatch callee .. => some callee
  | argLengthMismatch callee .. => some callee
  | _ => none

namespace DecodeError

def Plain (e : DecodeError) : Prop := e.category ≠ .shape

/-- If the error is about arguments at all, it is about those of this function, and the function is
classified. -/
def Blames (callee : Callee) (e : DecodeError) : Prop :=
  e.category = .shape → callee ≠ .unknown ∧ ∀ named ∈ e.callee?, named = callee

end DecodeError

open DecodeError (Plain)

namespace Read

theorem varint_plain (context : String) : (varint context).FailsAs Plain :=
  .varint nofun nofun nofun nofun

theorem block_plain (n : Nat) (context : String) : (block n context).FailsAs Plain :=
  .block n nofun

theorem u64_plain (context : String) : (u64 context).FailsAs Plain :=
  (((block_plain 8 context).map _).map _).map _

theorem prefixed_plain (context : String) : (prefixed context).FailsAs Plain := by
  have number : (length context).FailsAs Plain := by
    refine ((varint_plain context).bind fun _ => ?_).atomically
    exact .ite (fun _ => .pure _) fun _ => .fail nofun
  exact (number.bind fun n => (block_plain n context).map _).atomically

end Read

theorem FunctionId.read_plain : FunctionId.read.FailsAs Plain :=
  ((Read.block_plain 32 _).map _).bind fun _ => (Read.prefixed_plain _).bind fun _ =>
    (Read.prefixed_plain _).bind fun _ => .pure _

theorem Footer.read_plain : Footer.read.FailsAs Plain :=
  (Read.u64_plain _).bind fun _ => (Read.u64_plain _).bind fun _ =>
    (Read.u64_plain _).bind fun _ => (Read.FailsAs.byte nofun).bind fun _ => .pure _

namespace Piece

/-- A number that is not the expected one is held against this function, or against none. -/
def HeldAgainst (callee : Callee) : Piece → Prop
  | number _ _ fault =>
    ∀ found, (fault found).category = .shape → (fault found).callee? = some callee
  | _ => True

theorem Refused.callee?_of_shape {callee : Callee} {piece : Piece} {bs : Bytes} {e : DecodeError}
    (refused : piece.Refused bs e) (held : piece.HeldAgainst callee) (shape : e.category = .shape) :
    e.callee? = some callee := by
  cases refused with
  | unreadable failed => exact absurd shape (Read.varint_plain _ _ _ _ failed)
  | deviates other => exact held _ shape
  | short few => cases shape
  | nameless failed => exact absurd shape (Read.prefixed_plain _ _ _ _ failed)

theorem Breaks.callee?_of_shape {callee : Callee} {pieces : List Piece} {bs : Bytes}
    {e : DecodeError} (broken : Breaks pieces bs e)
    (held : ∀ piece ∈ pieces, piece.HeldAgainst callee) (shape : e.category = .shape) :
    e.callee? = some callee := by
  induction broken with
  | here refused => exact refused.callee?_of_shape (held _ List.mem_cons_self) shape
  | later _ _ ih => exact ih (fun piece member => held piece (List.mem_cons_of_mem _ member)) shape

end Piece

theorem StructTag.tagFault_callee? {callee : Callee} {tag : UInt32}
    (shape : (StructTag.tagFault callee tag).category = .shape) :
    (StructTag.tagFault callee tag).callee? = some callee := by
  unfold StructTag.tagFault at shape ⊢
  split at shape
  · cases shape
  · rfl

namespace Action

theorem pieces_heldAgainst (callee : Callee) :
    ∀ piece ∈ Action.pieces callee, piece.HeldAgainst callee := by
  have transfer (callee : Callee) : ∀ piece ∈ Transfer.pieces callee, piece.HeldAgainst callee := by
    simp [Transfer.pieces, Piece.HeldAgainst, DecodeError.callee?]
  have coin (callee : Callee) : ∀ piece ∈ CoinTransfer.pieces callee, piece.HeldAgainst callee := by
    have tag : (Piece.number "type tag" 7 (StructTag.tagFault callee)).HeldAgainst callee :=
      fun _ => StructTag.tagFault_callee?
    have named : ∀ piece ∈ StructTag.pieces callee, piece.HeldAgainst callee := by
      simp [StructTag.pieces, Piece.HeldAgainst, DecodeError.callee?]
    intro piece member
    simp only [CoinTransfer.pieces, List.mem_append, List.mem_cons, List.not_mem_nil, or_false]
      at member
    obtain ((rfl | rfl) | member) | member := member
    · exact fun _ _ => rfl
    · exact tag
    · exact named piece member
    · exact transfer callee piece member
  cases callee with
  | unknown => nofun
  | accountTransfer => exact List.forall_mem_cons.mpr ⟨fun _ _ => rfl, transfer _⟩
  | coinTransfer => exact coin _
  | accountTransferCoins => exact coin _

theorem read_blames (callee : Callee) : (Action.read callee).FailsAs (·.Blames callee) := by
  intro bs e rest failed shape
  have broken := ((read_follows callee).breaks bs e).mp ⟨rest, failed⟩
  constructor
  · rintro rfl
    cases broken
  · have named := broken.callee?_of_shape (pieces_heldAgainst callee) shape
    simp [named]

end Action

namespace Traced

/-- What the stage ends in: the events that it recorded, next to its result. -/
def Tells (t : Traced α) (post : List Event → Except DecodeError α → Prop) : Prop :=
  post t.events t.result

namespace Tells

theorem mono {t : Traced α} {post post' : List Event → Except DecodeError α → Prop}
    (told : t.Tells post) (weaker : ∀ events result, post events result → post' events result) :
    t.Tells post' :=
  weaker _ _ told

variable {post : List Event → Except DecodeError β → Prop}

theorem lift {result : Except DecodeError α} {next : α → Traced β}
    (failed : ∀ e, result = .error e → post [] (.error e))
    (following : ∀ a, result = .ok a → (next a).Tells post) :
    ((liftM result : Traced α) >>= next).Tells post := by
  cases result with
  | ok a => exact following a rfl
  | error e => exact failed e rfl

theorem record {event : Event} {next : Unit → Traced β}
    (following : (next ()).Tells fun events => post (event :: events)) :
    (Traced.record event >>= next).Tells post :=
  following

theorem map {t : Traced α} {f : α → β}
    (inner : t.Tells fun events result => post events (result.map f)) :
    (do return f (← t) : Traced β).Tells post := by
  obtain ⟨events, result⟩ := t
  cases result with
  | ok a =>
    have told : post (events ++ []) (.ok (f a)) := by
      rw [List.append_nil]
      exact inner
    exact told
  | error e => exact inner

end Tells

end Traced

/-- The events of an accepted payload. -/
def Payload.story : Payload → List Event
  | script _ => [.readPayloadKind .script]
  | multisig _ => [.readPayloadKind .multisig]
  | entryFunction call => [.readPayloadKind .entryFunction, .classifiedCall call.callee]

def Request.story (length : Nat) : Request → List Event
  | transaction tx => .matchedDomain .rawTransaction :: tx.payload.story
  | transactionWithData _ => [.matchedDomain .rawTransactionWithData]
  | plainMessage _ => [.classifiedMessage .plainMessage length]
  | rawMessage _ => [.classifiedMessage .rawMessage length]

/-- What the events tell of a call: only after it was classified an error can be about its
arguments. -/
inductive EntryCall.Told : List Event → Except DecodeError EntryCall → Prop
  | read (call : EntryCall) : Told [.classifiedCall call.callee] (.ok call)
  | nameless {e : DecodeError} (plain : e.Plain) : Told [] (.error e)
  | refused {e : DecodeError} (callee : Callee) (blamed : e.Blames callee) :
      Told [.classifiedCall callee] (.error e)

inductive Payload.Told : List Event → Except DecodeError Payload → Prop
  | read (payload : Payload) : Told payload.story (.ok payload)
  | unread {e : DecodeError} (plain : e.Plain) : Told [] (.error e)
  | unclassified {e : DecodeError} (kind : Payload.Kind) (plain : e.Plain) :
      Told [.readPayloadKind kind] (.error e)
  | refused {e : DecodeError} (callee : Callee) (blamed : e.Blames callee) :
      Told [.readPayloadKind .entryFunction, .classifiedCall callee] (.error e)

namespace Payload

theorem story_congr {p q : Payload} (kinds : p.kind = q.kind)
    (callees : ∀ call call', p = .entryFunction call → q = .entryFunction call' →
      call.callee = call'.callee) : p.story = q.story := by
  cases p with
  | script body => cases q <;> first | rfl | cases kinds
  | multisig body => cases q <;> first | rfl | cases kinds
  | entryFunction call =>
    cases q with
    | entryFunction call' => rw [story, story, callees call call' rfl rfl]
    | _ => cases kinds

namespace Told

variable {events : List Event} {result : Except DecodeError Payload}

theorem eq_story {payload : Payload} (told : Told events result) (accepted : result = .ok payload) :
    events = payload.story := by
  cases told with
  | read payload =>
    cases accepted
    rfl
  | _ => cases accepted

theorem level (told : Told events result) : ∀ event ∈ events, event.level = "TRACE" := by
  cases told with
  | read payload => cases payload <;> simp [story, Event.level]
  | _ => simp [Event.level]

theorem ordered (told : Told events result) :
    events.map Event.message <+: ["payload variant", "classified entry function"] := by
  cases told with
  | read payload =>
    cases payload with
    | entryFunction call => exact ⟨[], rfl⟩
    | _ => exact ⟨["classified entry function"], rfl⟩
  | unread plain => exact List.nil_prefix
  | unclassified kind plain => exact ⟨["classified entry function"], rfl⟩
  | refused callee blamed => exact ⟨[], rfl⟩

theorem blamed {e : DecodeError} (told : Told events result) (refused : result = .error e)
    (shape : e.category = .shape) :
    ∃ callee, events.getLast? = some (.classifiedCall callee) ∧ callee ≠ .unknown ∧
      ∀ named ∈ e.callee?, named = callee := by
  cases told with
  | read payload => cases refused
  | unread plain =>
    cases refused
    exact absurd shape plain
  | unclassified kind plain =>
    cases refused
    exact absurd shape plain
  | refused callee blamed =>
    cases refused
    exact ⟨callee, rfl, blamed shape⟩

end Told

theorem checkEnd_blames {start pos : Nat} {callee : Callee} {e : DecodeError}
    (failed : checkEnd start pos callee = .error e) : e.Blames callee := by
  obtain ⟨-, -, rfl⟩ | ⟨classified, -, rfl⟩ := checkEnd_eq_error_iff.mp failed
  · nofun
  · exact fun _ => ⟨classified, nofun⟩

theorem bodyBefore_plain {start : Nat} {c : Cursor} {e : DecodeError}
    (failed : bodyBefore start c = .error e) : e.Plain := by
  unfold bodyBefore at failed
  split at failed
  · cases failed
    nofun
  · exact Cursor.failsAs_of_read ((Read.block_plain _ _).map _) (Except.map_eq_error_iff.mp failed)

theorem readKind_plain {c : Cursor} {e : DecodeError} (failed : readKind c = .error e) :
    e.Plain := by
  obtain failed | ⟨tag, next, -, -, rfl⟩ := readKind_eq_error_iff.mp failed
  · exact Cursor.failsAs_of_read (Read.varint_plain _) failed
  · nofun

theorem decodeCall_tells (o : Options) (start : Nat) (c : Cursor) :
    (decodeCall o start c).Tells EntryCall.Told := by
  refine .lift (fun e failed => .nameless (Cursor.failsAs_of_read FunctionId.read_plain failed)) ?_
  rintro ⟨target, next⟩ -
  refine .record (.lift ?_ ?_)
  · intro e failed
    exact .refused _ (Cursor.failsAs_of_read (Action.read_blames _) failed)
  · rintro ⟨action, stop⟩ read
    refine .lift (fun e failed => .refused _ (checkEnd_blames failed)) ?_
    rintro ⟨⟩ -
    obtain ⟨rest, read, -⟩ := Cursor.read_eq_ok_iff_remaining.mp read
    have known := ((Action.read_accepts _ _ _ _).mp read).1.1
    exact known ▸ .read ⟨target, action⟩

theorem decode_tells (o : Options) (start : Nat) (c : Cursor) :
    (Payload.decode o start c).Tells Payload.Told := by
  refine .lift (fun e failed => .unread (readKind_plain failed)) ?_
  rintro ⟨kind, next⟩ -
  refine .record ?_
  cases kind with
  | script =>
    refine .lift (fun e failed => .unclassified .script (bodyBefore_plain failed)) ?_
    exact fun body _ => .read (.script body)
  | multisig =>
    refine .lift (fun e failed => .unclassified .multisig (bodyBefore_plain failed)) ?_
    exact fun body _ => .read (.multisig body)
  | entryFunction =>
    refine .map ((decodeCall_tells o start next).mono ?_)
    intro events result told
    cases told with
    | read call => exact .read (.entryFunction call)
    | nameless plain => exact .unclassified .entryFunction plain
    | refused callee blamed => exact .refused callee blamed

end Payload

namespace RawTransaction

theorem footerStart_plain {c : Cursor} {e : DecodeError} (failed : footerStart c = .error e) :
    e.Plain := by
  dsimp only [footerStart] at failed
  split at failed <;> cases failed
  nofun

theorem readAt_plain {data : Bytes} {start : Nat} {e : DecodeError}
    (failed : Footer.readAt data start = .error e) : e.Plain := by
  obtain failed | ⟨c, -, failed⟩ := Except.bind_eq_error_iff.mp failed
  · unfold Cursor.startAt at failed
    split at failed <;> cases failed
    nofun
  · obtain failed | ⟨⟨footer, stop⟩, -, done⟩ := Except.bind_eq_error_iff.mp failed
    · exact Cursor.failsAs_of_read Footer.read_plain failed
    · cases done

theorem decode_tells (o : Options) (c : Cursor) :
    (RawTransaction.decode o c).Tells fun events result =>
      Payload.Told events (result.map (·.payload)) := by
  have address : (Read.address "sender").FailsAs Plain := (Read.block_plain 32 _).map _
  refine .lift (fun e failed => .unread (Cursor.failsAs_of_read address failed)) ?_
  rintro ⟨sender, c⟩ -
  refine .lift (fun e failed => .unread (Cursor.failsAs_of_read (Read.u64_plain _) failed)) ?_
  rintro ⟨sequenceNumber, c⟩ -
  refine .lift (fun e failed => .unread (footerStart_plain failed)) ?_
  rintro start -
  refine .lift (fun e failed => .unread (readAt_plain failed)) ?_
  rintro footer -
  refine .map ((Payload.decode_tells o start c).mono ?_)
  intro events result told
  cases result with
  | ok payload => exact told
  | error e => exact told

end RawTransaction

namespace Request

/-- What the events up to the outcome tell of an input. -/
inductive Told (input : Bytes) : List Event → Except DecodeError Request → Prop
  | accepted (request : Request) : Told input (request.story input.length) (.ok request)
  | tooLong (length max : Nat) : Told input [] (.error (.inputTooLong length max))
  | cutMessage (length : Nat) (other : Domain.of? input = none) :
      Told input [] (.error (.unterminatedInput length))
  | cutWithData (length : Nat) (found : Domain.of? input = some .rawTransactionWithData) :
      Told input [.matchedDomain .rawTransactionWithData] (.error (.unterminatedInput length))
  | refused {events : List Event} {e : DecodeError} (told : Payload.Told events (.error e))
      (within : RawTransaction.Refusal input.length e) :
      Told input (.matchedDomain .rawTransaction :: events) (.error e)

theorem story_ofMessage (input : Bytes) :
    (ofMessage input).story input.length =
      [.classifiedMessage (ofMessage input).kind input.length] := by
  unfold ofMessage
  split <;> rfl

theorem eq_unterminated {o : Options} {input : Bytes} {e : DecodeError}
    (failed : checkTerminated o input = .error e) : e = .unterminatedInput input.length := by
  rw [checkTerminated_eq] at failed
  split at failed <;> cases failed
  rfl

theorem decodeTraced_tells (o : Options) (input : Bytes) :
    (decodeTraced o input).Tells (Told input) := by
  by_cases long : o.maxLength < input.length
  · rw [decodeTraced_eq, if_pos long]
    exact .tooLong _ _
  rw [decodeTraced_eq, if_neg long]
  cases found : Domain.of? input with
  | none =>
    refine .lift ?_ fun _ _ => .record ?_
    · intro e failed
      cases eq_unterminated failed
      exact .cutMessage _ found
    · have told : Told input _ _ := .accepted (ofMessage input)
      rw [story_ofMessage] at told
      exact told
  | some domain =>
    cases domain with
    | rawTransactionWithData =>
      refine .record (.lift ?_ fun _ _ => .accepted (.transactionWithData _))
      intro e failed
      cases eq_unterminated failed
      exact .cutWithData _ found
    | rawTransaction =>
      obtain ⟨rest, rfl⟩ := Domain.exists_append_of_of? found
      have fits := Nat.le_of_not_lt long
      have decoded := decode_rawTransaction fits
      have told := RawTransaction.decode_tells o
        (Cursor.between Domain.rawTransaction.separator rest)
      refine .record (.map ?_)
      change (RawTransaction.decode o (Cursor.between Domain.rawTransaction.separator rest)).Tells _
      unfold Traced.Tells at told ⊢
      cases read : (RawTransaction.decode o _).result with
      | ok tx =>
        rw [read] at told
        rw [told.eq_story rfl]
        exact .accepted (.transaction tx)
      | error e =>
        rw [read] at told decoded
        exact .refused told
          (RawTransaction.refusal_of_decode (List.prefix_append _ _) fits decoded)

theorem story_congr {request request' : Request} {length length' : Nat}
    (kinds : request.kind = request'.kind) (separate : request.kind ≠ .transaction)
    (lengths : request.kind ≠ .transactionWithData → length = length') :
    request.story length = request'.story length' := by
  cases request with
  | transaction tx => exact absurd rfl separate
  | transactionWithData body => cases request' <;> first | rfl | cases kinds
  | plainMessage message =>
    cases lengths nofun
    cases request' <;> first | rfl | cases kinds
  | rawMessage message =>
    cases lengths nofun
    cases request' <;> first | rfl | cases kinds

theorem getLast?_story {request : Request} {call : EntryCall} (called : request.call? = some call)
    (length : Nat) : (request.story length).getLast? = some (.classifiedCall call.callee) := by
  unfold call? at called
  split at called <;> cases called
  rfl

namespace Told

variable {input : Bytes} {events : List Event} {result : Except DecodeError Request}

theorem eq_story {request : Request} (told : Told input events result)
    (accepted : result = .ok request) : events = request.story input.length := by
  cases told with
  | accepted request =>
    cases accepted
    rfl
  | _ => cases accepted

theorem level (told : Told input events result) : ∀ event ∈ events, event.level = "TRACE" := by
  cases told with
  | accepted request =>
    cases request with
    | transaction tx => exact List.forall_mem_cons.mpr ⟨rfl, (Payload.Told.read tx.payload).level⟩
    | _ => simp [story, Event.level]
  | refused told within => exact List.forall_mem_cons.mpr ⟨rfl, told.level⟩
  | _ => simp [Event.level]

theorem ordered (told : Told input events result) :
    ∃ first ∈ ["matched RawTransaction prefix", "matched RawTransactionWithData prefix",
        "no transaction prefix, classified as message"],
      events.map Event.message <+: [first, "payload variant", "classified entry function"] := by
  have alone (first : String) :
      [first] <+: [first, "payload variant", "classified entry function"] :=
    List.prefix_append [first] _
  have behind {events : List Event} {result : Except DecodeError Payload}
      (told : Payload.Told events result) :
      (Event.matchedDomain .rawTransaction :: events).map Event.message <+:
        ["matched RawTransaction prefix", "payload variant", "classified entry function"] :=
    List.cons_prefix_cons.mpr ⟨rfl, told.ordered⟩
  cases told with
  | accepted request =>
    cases request with
    | transaction tx => exact ⟨_, by simp, behind (.read tx.payload)⟩
    | transactionWithData body => exact ⟨"matched RawTransactionWithData prefix", by simp, alone _⟩
    | _ => exact ⟨"no transaction prefix, classified as message", by simp, alone _⟩
  | cutWithData length found => exact ⟨"matched RawTransactionWithData prefix", by simp, alone _⟩
  | refused told within => exact ⟨_, by simp, behind told⟩
  | _ => exact ⟨"no transaction prefix, classified as message", by simp, List.nil_prefix⟩

theorem eq_nil_iff (told : Told input events result) :
    events = [] ↔ (∃ length max, result = .error (.inputTooLong length max)) ∨
      (∃ length, result = .error (.unterminatedInput length)) ∧
        ¬ Domain.rawTransactionWithData.separator <+: input := by
  cases told with
  | accepted request => cases request <;> simp [story]
  | tooLong length max => simp
  | cutMessage length other =>
    have separate : ¬ Domain.rawTransactionWithData.separator <+: input := by
      rintro ⟨rest, rfl⟩
      rw [Domain.of?_append] at other
      cases other
    simp [separate]
  | cutWithData length found =>
    obtain ⟨rest, rfl⟩ := Domain.exists_append_of_of? found
    simp
  | refused told within =>
    constructor
    · intro none
      cases none
    · rintro (⟨length, max, same⟩ | ⟨⟨length, same⟩, -⟩)
      · cases same
        exact within.elim
      · cases same
        exact within.elim

theorem blamed {e : DecodeError} (told : Told input events result) (refused : result = .error e)
    (shape : e.category = .shape) :
    ∃ callee, events.getLast? = some (.classifiedCall callee) ∧ callee ≠ .unknown ∧
      ∀ named ∈ e.callee?, named = callee := by
  cases told with
  | accepted request => cases refused
  | refused told within =>
    cases refused
    obtain ⟨callee, last, blamed⟩ := told.blamed rfl shape
    exact ⟨callee, by rw [List.getLast?_cons, last]; rfl, blamed⟩
  | _ =>
    cases refused
    cases shape

end Told

def Outcome.traces (out : Outcome) : List Event :=
  out.events.filter (·.level = "TRACE")

theorem events_decodeForHost (o : Options) (input : Bytes) :
    ∃ last, (decodeForHost o input).events = (decodeTraced o input).events ++ [last] ∧
      last.level = "DEBUG" ∧
      last.fields.lookup "status" = some (decodeForHost o input).status.name := by
  unfold decodeForHost
  cases decodeTraced o input with
  | mk events result =>
    cases result with
    | ok request => exact ⟨.accepted request.kind, rfl, rfl, rfl⟩
    | error e => exact ⟨.refused e, rfl, rfl, rfl⟩

theorem traces_decodeForHost (o : Options) (input : Bytes) :
    (decodeForHost o input).traces = (decodeTraced o input).events := by
  obtain ⟨last, events, level, -⟩ := events_decodeForHost o input
  have traced := (decodeTraced_tells o input).level
  rw [Outcome.traces, events, List.filter_append, List.filter_eq_self.mpr (by simpa using traced)]
  simp [level]

theorem events_of_accepted {o : Options} {input : Bytes} {request : Request}
    (accepted : decode o input = .ok request) :
    (decodeForHost o input).events = request.story input.length ++ [.accepted request.kind] := by
  have story := (decodeTraced_tells o input).eq_story accepted
  unfold decode at accepted
  unfold decodeForHost
  rw [← story]
  cases traced : decodeTraced o input with
  | mk events result =>
    rw [traced] at accepted
    cases accepted
    rfl

end Request

open Request

/-- The events explain the outcome, which is the last of them and told once. The steps before it
come in their order, and there are none just if the length or the last byte settled the matter. An
error about arguments comes after the function was classified and is about that function, and of an
accepted call it is the function that is told. Accepted requests have the same events if they are of
the same kind: transactions with the same kind of payload and the same function, messages of the
same length. -/
theorem events_explain_outcome (o : Options) (input : Bytes) (out : Outcome)
    (answered : decodeForHost o input = out) :
    (∃ last, out.events = out.traces ++ [last] ∧ last.level = "DEBUG" ∧
      last.fields.lookup "status" = some out.status.name) ∧
    (∃ first ∈ ["matched RawTransaction prefix", "matched RawTransactionWithData prefix",
        "no transaction prefix, classified as message"],
      out.traces.map Event.message <+: [first, "payload variant", "classified entry function"]) ∧
    (out.traces = [] ↔ (∃ length max, decode o input = .error (.inputTooLong length max)) ∨
      (∃ length, decode o input = .error (.unterminatedInput length)) ∧
        ¬ Domain.rawTransactionWithData.separator <+: input) ∧
    (∀ e, decode o input = .error e → e.category = .shape →
      ∃ callee, out.traces.getLast? = some (.classifiedCall callee) ∧ callee ≠ .unknown ∧
        ∀ named ∈ e.callee?, named = callee) ∧
    (∀ request call, decode o input = .ok request → request.call? = some call →
      out.traces.getLast? = some (.classifiedCall call.callee)) ∧
    (∀ o' input' tx tx', decode o input = .ok (.transaction tx) →
      decode o' input' = .ok (.transaction tx') → tx.payload.kind = tx'.payload.kind →
      (∀ call call', tx.payload = .entryFunction call → tx'.payload = .entryFunction call' →
        call.callee = call'.callee) →
      out.events = (decodeForHost o' input').events) ∧
    ∀ o' input' request request', decode o input = .ok request →
      decode o' input' = .ok request' → request.kind = request'.kind →
      request.kind ≠ .transaction →
      (request.kind ≠ .transactionWithData → input.length = input'.length) →
      out.events = (decodeForHost o' input').events := by
  subst answered
  have told := decodeTraced_tells o input
  rw [traces_decodeForHost]
  refine ⟨events_decodeForHost o input, told.ordered, told.eq_nil_iff, ?_, ?_, ?_, ?_⟩
  · intro e refused shape
    exact told.blamed refused shape
  · intro request call accepted called
    rw [told.eq_story accepted]
    exact getLast?_story called _
  · intro o' input' tx tx' accepted other kinds callees
    rw [events_of_accepted accepted, events_of_accepted other, story, story,
      Payload.story_congr kinds callees]
    rfl
  · intro o' input' request request' accepted other kinds separate lengths
    rw [events_of_accepted accepted, events_of_accepted other, kinds,
      story_congr kinds separate lengths]

def sampleOtherTransfer : RawTransaction where
  sender := .framework
  sequenceNumber := 8
  payload := .entryFunction ⟨⟨⟨.framework, Utf8.encode "coin"⟩, Utf8.encode "transfer"⟩,
    .coinTransfer ⟨.aptosCoin, ⟨.zero, 5⟩⟩⟩
  footer := { maxGasAmount := 9, gasUnitPrice := 150, chainId := 2 }

theorem events_explain_outcome_sampleTransfer :
    (decodeForHost {} (transaction sampleTransfer).encode).events =
        (decodeForHost .strict (transaction sampleOtherTransfer).encode).events ∧
      (decodeForHost {} sampleTwoTypeArgs).traces.getLast? =
        some (.classifiedCall .coinTransfer) := by
  constructor
  · have other : decode .strict (transaction sampleOtherTransfer).encode =
        .ok (.transaction sampleOtherTransfer) := by decide +kernel
    obtain ⟨-, -, -, -, -, transactions, -⟩ := events_explain_outcome {} _ _ rfl
    refine transactions _ _ _ _ decode_sampleTransfer other rfl ?_
    rintro _ _ ⟨⟩ ⟨⟩
    rfl
  · have refused : decode {} sampleTwoTypeArgs =
        .error (.typeArgCountMismatch .coinTransfer 1 2) := by decide +kernel
    obtain ⟨-, -, -, misshapen, -⟩ := events_explain_outcome {} sampleTwoTypeArgs _ rfl
    obtain ⟨callee, last, -, named⟩ := misshapen _ refused rfl
    rw [last, ← named .coinTransfer rfl]

end ClearSign
