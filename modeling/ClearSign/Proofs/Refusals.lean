import ClearSign.Proofs.Canonical.Varint
import ClearSign.Proofs.Grammar.Parts

/-!
Refusals. Every error that decoding ends with is one of a closed set, and says something true of the
input: the number found is not the one that was expected, the position misses the footer in just the
way that is told, and no end of input is reported where the layout leaves no room for one.
-/

namespace ClearSign

namespace Read

def FailsAs (r : Read α) (kind : DecodeError → Prop) : Prop :=
  ∀ bs e rest, r bs = (.error e, rest) → kind e

namespace FailsAs

variable {kind : DecodeError → Prop}

theorem pure (a : α) : (Pure.pure a : Read α).FailsAs kind := by
  intro bs e rest failed
  cases failed

theorem fail {e : DecodeError} (known : kind e) : (Read.fail e : Read α).FailsAs kind := by
  intro bs e' rest failed
  cases failed
  exact known

theorem bind {r : Read α} {next : α → Read β} (first : r.FailsAs kind)
    (second : ∀ a, (next a).FailsAs kind) : (r >>= next).FailsAs kind := by
  intro bs e rest failed
  obtain failed | ⟨a, mid, -, failed⟩ := bind_eq_error_iff.mp failed
  · exact first bs e rest failed
  · exact second a mid e rest failed

theorem map {r : Read α} (inner : r.FailsAs kind) (f : α → β) : (f <$> r).FailsAs kind :=
  inner.bind fun a => pure (f a)

theorem ite {r s : Read α} {p : Prop} [Decidable p] (yes : p → r.FailsAs kind)
    (no : ¬p → s.FailsAs kind) : (if p then r else s).FailsAs kind := by
  split
  · next known => exact yes known
  · next known => exact no known

theorem atomically {r : Read α} (inner : r.FailsAs kind) : (Read.atomically r).FailsAs kind := by
  intro bs e rest failed
  obtain ⟨-, mid, failed⟩ := atomically_eq_error_iff.mp failed
  exact inner bs e mid failed

theorem byte {context : String} (ended : kind (.unexpectedEnd context)) :
    (Read.byte context).FailsAs kind := by
  intro bs e rest failed
  cases bs <;> cases failed
  exact ended

theorem block {context : String} (n : Nat) (ended : kind (.unexpectedEnd context)) :
    (Read.block n context).FailsAs kind := by
  intro bs e rest failed
  unfold Read.block at failed
  split at failed <;> cases failed
  exact ended

theorem varint {context : String} (ended : kind (.unexpectedEnd context))
    (long : kind (.varintTooLong context)) (overflow : kind (.varintOverflow context))
    (padded : kind (.nonCanonicalVarint context)) : (Read.varint context).FailsAs kind := by
  intro bs e rest failed
  obtain ⟨-, refused⟩ := varint_eq_error_iff.mp failed
  cases refused with
  | ended => exact ended
  | overflow => exact overflow
  | tooLong => exact long
  | padded => exact padded

end FailsAs

end Read

def EntryCall.parts : List String :=
  ["module address", "module name", "function name", "type argument count", "type tag",
    "struct address", "struct module name", "struct name", "struct type argument count",
    "argument count", "receiver", "amount"]

/-- What a transaction can be refused for, if its input has so many bytes. -/
def RawTransaction.Refusal (length : Nat) : DecodeError → Prop
  | .lengthExceedsLimit field n max =>
    field ∈ EntryCall.parts ∧ max = Limits.sequenceLength ∧ max < n
  | .footerOverlap start pos => start = length - 25 ∧ start ≤ pos
  | .unexpectedEnd context => context ∈ "sender" :: "sequence number" :: EntryCall.parts
  | .varintTooLong context => context ∈ "payload variant" :: EntryCall.parts
  | .varintOverflow context => context ∈ "payload variant" :: EntryCall.parts
  | .nonCanonicalVarint context => context ∈ "payload variant" :: EntryCall.parts
  | .invalidPayloadVariant variant => Payload.Kind.ofTag? variant = none
  | .invalidTypeTag tag => TypeTag.Kind.ofTag? tag = none
  | .unexpectedTypeTag callee expected found =>
    callee ≠ .unknown ∧ expected = .struct ∧ found ≠ expected
  | .typeArgCountMismatch callee expected found =>
    callee ≠ .unknown ∧ callee.typeArgs? = some expected ∧ found ≠ expected
  | .coinTypeArgCountMismatch callee found => callee ≠ .unknown ∧ found ≠ 0
  | .argCountMismatch callee expected found =>
    callee ≠ .unknown ∧ callee.args? = some expected ∧ found ≠ expected
  | .argLengthMismatch callee arg expected found =>
    callee ≠ .unknown ∧ (arg, expected) ∈ [("receiver", 32), ("amount", 8)] ∧ found ≠ expected
  | .payloadLengthMismatch start pos => start = length - 25 ∧ pos ≠ start
  | .inputTooLong .. => False
  | .capacityExceeded .. => False
  | .unterminatedInput _ => False
  | .invalidBool _ => False
  | .unsupportedTypeTag _ => False
  | .invalidUtf8 .. => False

/-- What a request can be refused for. -/
def Request.Refusal (o : Options) (length : Nat) : DecodeError → Prop
  | .inputTooLong n max => n = length ∧ max = o.maxLength ∧ max < n
  | .unterminatedInput n => n = length ∧ n = o.maxLength ∧ 0 < n
  | e => RawTransaction.Refusal length e

open RawTransaction (Refusal)

section

variable {length : Nat}

namespace Read

theorem varint_failsAs {context : String} (part : context ∈ EntryCall.parts) :
    (varint context).FailsAs (Refusal length) := by
  have listed := List.mem_cons_of_mem "payload variant" part
  exact .varint (List.mem_cons_of_mem _ (List.mem_cons_of_mem _ part)) listed listed listed

theorem block_failsAs {context : String} (n : Nat) (part : context ∈ EntryCall.parts) :
    (block n context).FailsAs (Refusal length) :=
  .block n (List.mem_cons_of_mem _ (List.mem_cons_of_mem _ part))

theorem prefixed_failsAs {field : String} (part : field ∈ EntryCall.parts) :
    (prefixed field).FailsAs (Refusal length) := by
  have number : (Read.length field).FailsAs (Refusal length) := by
    refine ((varint_failsAs part).bind fun n => ?_).atomically
    exact .ite (fun _ => .pure _) fun long => .fail ⟨part, rfl, Nat.lt_of_not_le long⟩
  exact (number.bind fun n => (block_failsAs n part).map _).atomically

theorem expected_failsAs {context : String} (part : context ∈ EntryCall.parts) {expected : UInt32}
    {fault : UInt32 → DecodeError} (truthful : ∀ found ≠ expected, Refusal length (fault found)) :
    (do let found ← varint context
        if found = expected then return () else Read.fail (fault found) : Read Unit).FailsAs
      (Refusal length) :=
  (varint_failsAs part).bind fun found =>
    .ite (fun _ => .pure _) fun other => .fail (truthful found other)

end Read

theorem TypeTag.Kind.read_failsAs : Kind.read.FailsAs (Refusal length) := by
  refine ((Read.varint_failsAs (by decide)).bind fun tag => ?_).atomically
  cases found : ofTag? tag with
  | some kind => exact .pure _
  | none => exact .fail found

theorem StructTag.read_failsAs {callee : Callee} (classified : callee ≠ .unknown) :
    (StructTag.read callee).FailsAs (Refusal length) :=
  ((Read.block_failsAs 32 (by decide)).map _).bind fun _ =>
    (Read.prefixed_failsAs (by decide)).bind fun _ =>
      (Read.prefixed_failsAs (by decide)).bind fun _ =>
        (Read.varint_failsAs (by decide)).bind fun _ =>
          .ite (fun _ => .pure _) fun generic => .fail ⟨classified, generic⟩

theorem FunctionId.read_failsAs : FunctionId.read.FailsAs (Refusal length) :=
  ((Read.block_failsAs 32 (by decide)).map _).bind fun _ =>
    (Read.prefixed_failsAs (by decide)).bind fun _ =>
      (Read.prefixed_failsAs (by decide)).bind fun _ => .pure _

theorem Callee.expects_of_classified {callee : Callee} (classified : callee ≠ .unknown) :
    callee.typeArgs? = some (callee.typeArgs?.getD 0) ∧
      callee.args? = some (callee.args?.getD 0) := by
  cases callee with
  | unknown => exact absurd rfl classified
  | _ => exact ⟨rfl, rfl⟩

namespace Action

theorem readTypeArgCount_failsAs {callee : Callee} (classified : callee ≠ .unknown) :
    (readTypeArgCount callee).FailsAs (Refusal length) :=
  Read.expected_failsAs (by decide) fun _ other =>
    ⟨classified, (Callee.expects_of_classified classified).1, other⟩

theorem readArgCount_failsAs {callee : Callee} (classified : callee ≠ .unknown) :
    (readArgCount callee).FailsAs (Refusal length) :=
  Read.expected_failsAs (by decide) fun _ other =>
    ⟨classified, (Callee.expects_of_classified classified).2, other⟩

theorem readArgLength_failsAs {callee : Callee} (classified : callee ≠ .unknown) {arg : String}
    {expected : UInt32} (part : arg ∈ EntryCall.parts)
    (known : (arg, expected) ∈ [("receiver", 32), ("amount", 8)]) :
    (readArgLength callee arg expected).FailsAs (Refusal length) :=
  Read.expected_failsAs part fun _ other => ⟨classified, known, other⟩

theorem readCoin_failsAs {callee : Callee} (classified : callee ≠ .unknown) :
    (readCoin callee).FailsAs (Refusal length) :=
  TypeTag.Kind.read_failsAs.bind fun _ =>
    .ite (fun _ => StructTag.read_failsAs classified) fun other => .fail ⟨classified, rfl, other⟩

theorem readTransfer_failsAs {callee : Callee} (classified : callee ≠ .unknown) :
    (readTransfer callee).FailsAs (Refusal length) :=
  (readArgCount_failsAs classified).bind fun _ =>
    (readArgLength_failsAs classified (by decide) (by decide)).bind fun _ =>
      ((Read.block_failsAs 32 (by decide)).map _).bind fun _ =>
        (readArgLength_failsAs classified (by decide) (by decide)).bind fun _ =>
          ((((Read.block_failsAs 8 (by decide)).map _).map _).map _).bind fun _ => .pure _

theorem readCoinTransfer_failsAs {callee : Callee} (classified : callee ≠ .unknown) :
    (readCoinTransfer callee).FailsAs (Refusal length) :=
  (readTypeArgCount_failsAs classified).bind fun _ => (readCoin_failsAs classified).bind fun _ =>
    (readTransfer_failsAs classified).bind fun _ => .pure _

theorem read_failsAs (callee : Callee) : (Action.read callee).FailsAs (Refusal length) := by
  cases callee with
  | unknown => exact .pure _
  | accountTransfer =>
    exact (readTypeArgCount_failsAs (by decide)).bind fun _ =>
      (readTransfer_failsAs (by decide)).map _
  | coinTransfer => exact (readCoinTransfer_failsAs (by decide)).map _
  | accountTransferCoins => exact (readCoinTransfer_failsAs (by decide)).map _

end Action

end

theorem Cursor.failsAs_of_read {r : Read α} {kind : DecodeError → Prop} (known : r.FailsAs kind)
    {c : Cursor} {e : DecodeError} (failed : c.read r = .error e) : kind e := by
  obtain ⟨rest, failed⟩ := read_eq_error_iff.mp failed
  exact known _ e rest failed

/-- Five bytes are enough to tell what is wrong with a varint. -/
theorem Read.length_lt_of_varint_ended {context context' : String} {bs rest : Bytes}
    (ended : varint context bs = (.error (.unexpectedEnd context'), rest)) : bs.length < 5 := by
  obtain ⟨-, refused⟩ := varint_eq_error_iff.mp ended
  cases refused with
  | ended _ few _ => exact few

namespace Payload

open Cursor

variable {length : Nat} {before after : Bytes} {e : DecodeError}

theorem refusal_of_readKind (enough : 5 ≤ after.length)
    (failed : readKind (between before after) = .error e) : Refusal length e := by
  obtain failed | ⟨tag, c, -, unknown, rfl⟩ := readKind_eq_error_iff.mp failed
  · have known : (Read.varint "payload variant").FailsAs fun e =>
        e = .unexpectedEnd "payload variant" ∨ Refusal length e :=
      .varint (.inl rfl) (.inr List.mem_cons_self) (.inr List.mem_cons_self)
        (.inr List.mem_cons_self)
    obtain rfl | refusal := failsAs_of_read known failed
    · -- The footer follows, so there are enough bytes for whatever the varint is found to be.
      obtain ⟨rest, ended⟩ := read_eq_error_iff.mp failed
      have short := Read.length_lt_of_varint_ended ended
      simp only [remaining, data_between, pos_between, List.drop_left] at short
      omega
    · exact refusal
  · exact unknown

theorem refusal_of_bodyBefore {start : Nat} (inside : start ≤ (before ++ after).length)
    (footer : start = length - 25)
    (failed : bodyBefore start (between before after) = .error e) : Refusal length e := by
  unfold bodyBefore at failed
  split at failed
  · next overlaps =>
    cases failed
    exact ⟨footer, Nat.le_of_lt overlaps⟩
  · next fits =>
    rw [pos_between] at fits failed
    rw [List.length_append] at inside
    obtain ⟨body, rest, width, rfl⟩ :=
      Bytes.exists_split (by omega : start - before.length ≤ after.length)
    have taken := read_between (Read.bytes_accepts _ "payload body") width before rest
    simp only [id] at taken
    rw [taken] at failed
    cases failed

theorem refusal_of_checkEnd {start pos : Nat} {callee : Callee} (footer : start = length - 25)
    (failed : checkEnd start pos callee = .error e) : Refusal length e := by
  obtain ⟨-, overlaps, rfl⟩ | ⟨-, misses, rfl⟩ := checkEnd_eq_error_iff.mp failed
  · exact ⟨footer, Nat.le_of_lt overlaps⟩
  · exact ⟨footer, misses⟩

theorem refusal_of_decodeCall {o : Options} {start : Nat} {c : Cursor}
    (footer : start = length - 25)
    (failed : (decodeCall o start c).result = .error e) : Refusal length e := by
  simp only [decodeCall, Traced.result_bind, Traced.result_lift, Traced.result_record,
    Except.ok_bind] at failed
  obtain failed | ⟨⟨target, c⟩, -, failed⟩ := Except.bind_eq_error_iff.mp failed
  · exact failsAs_of_read FunctionId.read_failsAs failed
  obtain failed | ⟨⟨action, c⟩, -, failed⟩ := Except.bind_eq_error_iff.mp failed
  · exact failsAs_of_read (Action.read_failsAs _) failed
  obtain failed | ⟨⟨⟩, -, failed⟩ := Except.bind_eq_error_iff.mp failed
  · exact refusal_of_checkEnd footer failed
  · cases failed

theorem refusal_of_decode {o : Options} {start : Nat} (footer : start = length - 25)
    (inside : start ≤ (before ++ after).length) (enough : 5 ≤ after.length)
    (failed : (Payload.decode o start (between before after)).result = .error e) :
    Refusal length e := by
  cases read : readKind (between before after) with
  | error e' =>
    simp only [Payload.decode, Traced.result_bind, Traced.result_lift, read] at failed
    cases failed
    exact refusal_of_readKind enough read
  | ok answer =>
    obtain ⟨kind, c⟩ := answer
    obtain ⟨rest, rfl, -⟩ := readKind_eq_ok_iff.mp read
    rw [result_decode_kind] at failed
    rw [← List.append_assoc] at inside
    cases kind with
    | script => exact refusal_of_bodyBefore inside footer (Except.map_eq_error_iff.mp failed)
    | multisig => exact refusal_of_bodyBefore inside footer (Except.map_eq_error_iff.mp failed)
    | entryFunction => exact refusal_of_decodeCall footer (Except.map_eq_error_iff.mp failed)

end Payload

namespace RawTransaction

open Cursor

theorem result_decode_short {o : Options} {before rest : Bytes} (short : rest.length ≤ 65) :
    (RawTransaction.decode o (between before rest)).result =
      if rest.length < 32 then .error (.unexpectedEnd "sender")
      else if rest.length < 40 then .error (.unexpectedEnd "sequence number")
      else .error (.footerOverlap ((before ++ rest).length - 25) (before.length + 40)) := by
  simp only [RawTransaction.decode, Traced.result_bind, Traced.result_lift]
  by_cases headless : rest.length < 32
  · have ended : (between before rest).read (Read.address "sender") =
        .error (.unexpectedEnd "sender") := by
      simp [Cursor.read, run_between, Read.address, Read.bind_apply, Read.block,
        Nat.not_le.mpr headless]
    rw [if_pos headless, ended, Except.error_bind]
  rw [if_neg headless]
  obtain ⟨sender, rest, sender_width, rfl⟩ := Bytes.exists_split (Nat.le_of_not_lt headless)
  have read := read_between (Read.address_accepts "sender") (a := ⟨sender, sender_width⟩) trivial
    before rest
  rw [read, Except.ok_bind]
  simp only [List.length_append, sender_width] at short ⊢
  by_cases unnumbered : rest.length < 8
  · have ended : (between (before ++ sender) rest).read (Read.u64 "sequence number") =
        .error (.unexpectedEnd "sequence number") := by
      simp [Cursor.read, run_between, Read.u64, Read.number, Read.bind_apply,
        Read.bytes_short unnumbered]
    rw [if_pos (by omega), ended, Except.error_bind]
  rw [if_neg (by omega)]
  obtain ⟨number, rest, number_width, rfl⟩ := Bytes.exists_split (Nat.le_of_not_lt unnumbered)
  obtain ⟨sequenceNumber, rfl⟩ := LittleEndian.exists_u64 number_width
  have read := read_between (Read.u64_accepts "sequence number") (a := sequenceNumber) trivial
    (before ++ sender) rest
  rw [read, Except.ok_bind]
  simp only [List.length_append, number_width] at short ⊢
  rw [footerStart_between, if_pos (by omega), Except.error_bind]
  simp only [List.length_append, sender_width, number_width, Nat.add_assoc]

theorem refusal_of_decode {o : Options} {input : Bytes} {e : DecodeError}
    (raw : Domain.rawTransaction.separator <+: input) (fits : input.length ≤ o.maxLength)
    (failed : Request.decode o input = .error e) : Refusal input.length e := by
  by_cases long : 98 ≤ input.length
  · obtain ⟨p, rfl⟩ := Parts.exists_of_input raw long
    rw [p.decode_input fits] at failed
    have width := p.length_input
    have opening := p.length_opening
    refine Payload.refusal_of_decode ?_ ?_ ?_ (Except.map_eq_error_iff.mp failed)
    · omega
    · rw [← Parts.input]
      omega
    · rw [List.length_append, p.footer.length_encode]
      omega
  · obtain ⟨rest, rfl⟩ := raw
    have width : (Domain.rawTransaction.separator ++ rest).length = 32 + rest.length := by
      rw [List.length_append, Domain.length_separator]
    rw [Request.decode_rawTransaction fits, result_decode_short (by omega)] at failed
    have failed := Except.map_eq_error_iff.mp failed
    split at failed
    · cases failed
      exact List.mem_cons_self
    · split at failed
      · cases failed
        exact List.mem_cons_of_mem _ List.mem_cons_self
      · cases failed
        refine ⟨rfl, ?_⟩
        rw [Domain.length_separator]
        omega

end RawTransaction

theorem DecodeError.code_isPrefix_message (e : DecodeError) :
    ("[" ++ e.category.code ++ "]").toList <+: e.message.toList := by
  unfold category message
  cases e
  all_goals
    dsimp only [Category.code]
    simp only [String.toList_append, List.append_assoc]
    refine .trans ?_ (List.prefix_append _ _)
    decide

namespace Request

/-- The input fills the limit and does not end in NUL. -/
def CutShort (o : Options) (input : Bytes) : Prop :=
  input ≠ [] ∧ input.length = o.maxLength ∧ input.getLast? ≠ some 0

instance (o : Options) (input : Bytes) : Decidable (CutShort o input) :=
  inferInstanceAs (Decidable (_ ∧ _ ∧ _))

theorem checkTerminated_eq (o : Options) (input : Bytes) :
    checkTerminated o input =
      if CutShort o input then .error (.unterminatedInput input.length) else .ok () := by
  unfold checkTerminated
  split
  · next last found =>
    have present : input ≠ [] := by
      rintro rfl
      cases found
    have cut : CutShort o input ↔ input.length = o.maxLength ∧ last ≠ 0 := by
      simp [CutShort, found, present]
    simp only [cut]
  · next found => simp [CutShort, List.getLast?_eq_none_iff.mp found]

theorem refusal_of_checkTerminated {o : Options} {input : Bytes} {e : DecodeError}
    (failed : checkTerminated o input = .error e) : Refusal o input.length e := by
  rw [checkTerminated_eq] at failed
  split at failed
  · next cut =>
    cases failed
    exact ⟨rfl, cut.2.1, List.length_pos_iff.mpr cut.1⟩
  · cases failed

theorem refusal_of_decode {o : Options} {input : Bytes} {e : DecodeError}
    (failed : decode o input = .error e) : Refusal o input.length e := by
  by_cases long : o.maxLength < input.length
  · rw [decode_long long] at failed
    cases failed
    exact ⟨rfl, rfl, long⟩
  · have fits := Nat.le_of_not_lt long
    cases found : Domain.of? input with
    | none =>
      rw [decode_message fits found] at failed
      exact refusal_of_checkTerminated (Except.map_eq_error_iff.mp failed)
    | some domain =>
      obtain ⟨rest, rfl⟩ := Domain.exists_append_of_of? found
      cases domain with
      | rawTransaction =>
        have refusal := RawTransaction.refusal_of_decode (List.prefix_append _ rest) fits failed
        cases e <;> first | exact refusal | exact refusal.elim
      | rawTransactionWithData =>
        change decode o (withData rest) = .error e at failed
        rw [decode_withData fits] at failed
        exact refusal_of_checkTerminated (Except.map_eq_error_iff.mp failed)

theorem status_decodeForHost (o : Options) (input : Bytes) :
    (decodeForHost o input).status =
      match decode o input with
      | .ok _ => .ok
      | .error e => e.status := by
  unfold decodeForHost decode
  cases decodeTraced o input with
  | mk events result => cases result <;> rfl

/-- The parts that are there whenever they are read. -/
def certainParts : List String :=
  ["transaction prefix", "payload variant", "payload body", "footer", "max gas amount",
    "gas unit price", "expiration timestamp", "chain id"]

namespace Refusal

variable {o : Options} {length : Nat} {e : DecodeError}

theorem not_mem_certainParts {context : String}
    (refusal : Refusal o length (.unexpectedEnd context)) : context ∉ certainParts := by
  have separate : ∀ part ∈ "sender" :: "sequence number" :: EntryCall.parts,
      part ∉ certainParts := by decide
  exact separate context refusal

theorem code_status (refusal : Refusal o length e) :
    e.status.code ∉ [1, -2002, -2005, -2008, -2013] := by
  cases e with
  | capacityExceeded => exact refusal.elim
  | invalidBool => exact refusal.elim
  | unsupportedTypeTag => exact refusal.elim
  | invalidUtf8 => exact refusal.elim
  | _ => simp [DecodeError.status, Status.code]

end Refusal

end Request

/-- What a request is refused for is one of a closed set, and says something true of the input. The
host is told the status of it, and its message starts with the code of its category. -/
theorem refusals_are_truthful (o : Options) (input : Bytes) (e : DecodeError)
    (refused : Request.decode o input = .error e) :
    Request.Refusal o input.length e ∧
      (∀ context, e = .unexpectedEnd context → context ∉ Request.certainParts) ∧
      (Request.decodeForHost o input).status = e.status ∧
      e.status.code ∉ [1, -2002, -2005, -2008, -2013] ∧
      ("[" ++ e.category.code ++ "]").toList <+: e.message.toList := by
  have refusal := Request.refusal_of_decode refused
  refine ⟨refusal, ?_, ?_, refusal.code_status, e.code_isPrefix_message⟩
  · rintro context rfl
    exact refusal.not_mem_certainParts
  · rw [Request.status_decodeForHost, refused]

/-- A transfer of coins with two type arguments, where the second would be read from the footer. -/
def sampleTwoTypeArgs : Bytes :=
  Domain.rawTransaction.separator ++ (RawTransaction.encodeHead .zero 7 ++
    (Payload.Kind.entryFunction.encode ++
      (FunctionId.encode ⟨⟨.framework, Utf8.encode "coin"⟩, Utf8.encode "transfer"⟩ ++
        (Varint.encode 2 ++ Footer.encode {}))))

theorem refusals_are_truthful_sampleTwoTypeArgs :
    Request.decode {} sampleTwoTypeArgs = .error (.typeArgCountMismatch .coinTransfer 1 2) ∧
      Callee.coinTransfer.typeArgs? = some 1 ∧
      (Request.decodeForHost {} sampleTwoTypeArgs).status = .typeArgCountMismatch ∧
      "[E003]".toList <+:
        (DecodeError.typeArgCountMismatch .coinTransfer 1 2).message.toList := by
  have refused : Request.decode {} sampleTwoTypeArgs =
      .error (.typeArgCountMismatch .coinTransfer 1 2) := by decide +kernel
  obtain ⟨⟨-, expected, -⟩, -, status, -, message⟩ :=
    refusals_are_truthful {} sampleTwoTypeArgs _ refused
  exact ⟨refused, expected, status, message⟩

end ClearSign
