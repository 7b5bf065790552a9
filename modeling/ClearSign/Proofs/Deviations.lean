import ClearSign.Proofs.Canonical.Call
import ClearSign.Proofs.Canonical.Cursor

/-!
How calls are refused. A call of a classified function is a row of pieces, each with one spelling up
to the bytes of its addresses, names and amount. Reading goes along the row and stops at the first
piece that is not there: it reports what was found in place of a number, or why the piece could not
be read, and no piece behind it matters.
-/

namespace ClearSign

/-- A piece of a call: a number that is fixed and the error for any other, so many bytes, or a name
behind its length. -/
inductive Piece
  | number (context : String) (expected : UInt32) (fault : UInt32 → DecodeError)
  | block (width : Nat) (context : String)
  | name (context : String)

namespace Piece

inductive Spelled : Piece → Bytes → Prop
  | number {context expected fault} :
      Spelled (number context expected fault) (Varint.encode expected)
  | block {width context} (bs : Bytes) (fits : bs.length = width) : Spelled (block width context) bs
  | name {context} (bs : Bytes) (short : bs.Bounded) : Spelled (name context) bs.withLength

/-- Why a piece does not stand at the front: it cannot be read there, or it is another number. -/
inductive Refused : Piece → Bytes → DecodeError → Prop
  | unreadable {context expected fault bs rest e}
      (failed : Read.varint context bs = (.error e, rest)) :
      Refused (number context expected fault) bs e
  | deviates {context expected fault found rest} (other : found ≠ expected) :
      Refused (number context expected fault) (Varint.encode found ++ rest) (fault found)
  | short {width context bs} (few : bs.length < width) :
      Refused (block width context) bs (.unexpectedEnd context)
  | nameless {context bs rest e} (failed : Read.prefixed context bs = (.error e, rest)) :
      Refused (name context) bs e

/-- The pieces stand at the front one after the other, and the last bytes are what follows them. -/
inductive Takes : List Piece → Bytes → Bytes → Prop
  | nil {rest} : Takes [] rest rest
  | cons {piece pieces front bs rest} (spelled : piece.Spelled front)
      (more : Takes pieces bs rest) : Takes (piece :: pieces) (front ++ bs) rest

/-- The error for the leftmost piece that does not stand where it has to. -/
inductive Breaks : List Piece → Bytes → DecodeError → Prop
  | here {piece pieces bs e} (refused : piece.Refused bs e) : Breaks (piece :: pieces) bs e
  | later {piece pieces front bs e} (spelled : piece.Spelled front) (broken : Breaks pieces bs e) :
      Breaks (piece :: pieces) (front ++ bs) e

variable {piece : Piece} {pieces others : List Piece} {bs rest : Bytes} {e : DecodeError}

theorem takes_append_iff :
    Takes (pieces ++ others) bs rest ↔ ∃ mid, Takes pieces bs mid ∧ Takes others mid rest := by
  induction pieces generalizing bs with
  | nil =>
    constructor
    · intro taken
      exact ⟨bs, .nil, taken⟩
    · rintro ⟨mid, first, second⟩
      cases first
      exact second
  | cons piece pieces ih =>
    constructor
    · intro taken
      cases taken with
      | cons spelled more =>
        obtain ⟨mid, first, second⟩ := ih.mp more
        exact ⟨mid, .cons spelled first, second⟩
    · rintro ⟨mid, first, second⟩
      cases first with
      | cons spelled more => exact .cons spelled (ih.mpr ⟨mid, more, second⟩)

theorem breaks_append_iff :
    Breaks (pieces ++ others) bs e ↔
      Breaks pieces bs e ∨ ∃ mid, Takes pieces bs mid ∧ Breaks others mid e := by
  induction pieces generalizing bs with
  | nil =>
    constructor
    · intro broken
      exact .inr ⟨bs, .nil, broken⟩
    · rintro (broken | ⟨mid, first, second⟩)
      · cases broken
      · cases first
        exact second
  | cons piece pieces ih =>
    constructor
    · intro broken
      cases broken with
      | here refused => exact .inl (.here refused)
      | later spelled broken =>
        obtain broken | ⟨mid, first, second⟩ := ih.mp broken
        · exact .inl (.later spelled broken)
        · exact .inr ⟨mid, .cons spelled first, second⟩
    · rintro (broken | ⟨mid, first, second⟩)
      · cases broken with
        | here refused => exact .here refused
        | later spelled broken => exact .later spelled (ih.mpr (.inl broken))
      · cases first with
        | cons spelled more => exact .later spelled (ih.mpr (.inr ⟨mid, more, second⟩))

theorem takes_singleton_iff :
    Takes [piece] bs rest ↔ ∃ front, piece.Spelled front ∧ bs = front ++ rest := by
  constructor
  · intro taken
    cases taken with
    | cons spelled more =>
      cases more
      exact ⟨_, spelled, rfl⟩
  · rintro ⟨front, spelled, rfl⟩
    exact .cons spelled .nil

theorem breaks_singleton_iff : Breaks [piece] bs e ↔ piece.Refused bs e := by
  constructor
  · intro broken
    cases broken with
    | here refused => exact refused
    | later _ broken => cases broken
  · exact .here

theorem stands_or_refused (piece : Piece) (bs : Bytes) :
    (∃ front rest, piece.Spelled front ∧ bs = front ++ rest) ∨ ∃ e, piece.Refused bs e := by
  cases piece with
  | number context expected fault =>
    cases read : Read.varint context bs with
    | mk result rest =>
      cases result with
      | error e => exact .inr ⟨e, .unreadable read⟩
      | ok found =>
        obtain ⟨-, rfl⟩ := (Read.varint_accepts context bs found rest).mp read
        by_cases same : found = expected
        · subst same
          exact .inl ⟨_, rest, .number, rfl⟩
        · exact .inr ⟨_, .deviates same⟩
  | block width context =>
    by_cases enough : width ≤ bs.length
    · obtain ⟨front, rest, fits, rfl⟩ := Bytes.exists_split enough
      exact .inl ⟨front, rest, .block front fits, rfl⟩
    · exact .inr ⟨_, .short (Nat.lt_of_not_le enough)⟩
  | name context =>
    cases read : Read.prefixed context bs with
    | mk result rest =>
      cases result with
      | error e => exact .inr ⟨e, .nameless read⟩
      | ok found =>
        obtain ⟨short, rfl⟩ := (Read.prefixed_accepts context bs found rest).mp read
        exact .inl ⟨_, rest, .name found short, rfl⟩

end Piece

open Piece (Takes Breaks)

namespace Read

theorem checked_bind (r : Read α) (valid : α → Prop) [DecidablePred valid]
    (fault : α → DecodeError) (next : Read β) :
    (do let a ← r
        if valid a then next else fail (fault a) : Read β) =
      (do let a ← r
          if valid a then return () else fail (fault a) : Read Unit) >>= fun _ => next := by
  funext bs
  simp only [bind_apply]
  cases r bs with
  | mk result rest =>
    cases result with
    | error e => rfl
    | ok a => by_cases known : valid a <;> simp [known]

/-- The read goes along these pieces: it accepts what they stand at the front of, and leaves what
follows them; of anything else it reports the leftmost piece that is not there. -/
structure Follows (r : Read α) (pieces : List Piece) : Prop where
  takes : ∀ bs rest, (∃ a, r bs = (.ok a, rest)) ↔ Takes pieces bs rest
  breaks : ∀ bs e, (∃ rest, r bs = (.error e, rest)) ↔ Breaks pieces bs e

namespace Follows

variable {pieces others : List Piece}

theorem pure (a : α) : (Pure.pure a : Read α).Follows [] := by
  constructor
  · intro bs rest
    constructor
    · rintro ⟨b, read⟩
      cases read
      exact .nil
    · intro taken
      cases taken
      exact ⟨a, rfl⟩
  · intro bs e
    constructor
    · rintro ⟨rest, failed⟩
      cases failed
    · intro broken
      cases broken

theorem bind {r : Read α} {next : α → Read β} (first : r.Follows pieces)
    (second : ∀ a, (next a).Follows others) : (r >>= next).Follows (pieces ++ others) := by
  constructor
  · intro bs rest
    rw [Piece.takes_append_iff]
    constructor
    · rintro ⟨b, read⟩
      obtain ⟨a, mid, front, back⟩ := bind_eq_ok_iff.mp read
      exact ⟨mid, (first.takes bs mid).mp ⟨a, front⟩, ((second a).takes mid rest).mp ⟨b, back⟩⟩
    · rintro ⟨mid, front, back⟩
      obtain ⟨a, front⟩ := (first.takes bs mid).mpr front
      obtain ⟨b, back⟩ := ((second a).takes mid rest).mpr back
      exact ⟨b, bind_eq_ok_iff.mpr ⟨a, mid, front, back⟩⟩
  · intro bs e
    rw [Piece.breaks_append_iff]
    constructor
    · rintro ⟨rest, failed⟩
      obtain failed | ⟨a, mid, front, failed⟩ := bind_eq_error_iff.mp failed
      · exact .inl ((first.breaks bs e).mp ⟨rest, failed⟩)
      · exact .inr ⟨mid, (first.takes bs mid).mp ⟨a, front⟩,
          ((second a).breaks mid e).mp ⟨rest, failed⟩⟩
    · rintro (broken | ⟨mid, front, broken⟩)
      · obtain ⟨rest, failed⟩ := (first.breaks bs e).mpr broken
        exact ⟨rest, bind_eq_error_iff.mpr (.inl failed)⟩
      · obtain ⟨a, front⟩ := (first.takes bs mid).mpr front
        obtain ⟨rest, failed⟩ := ((second a).breaks mid e).mpr broken
        exact ⟨rest, bind_eq_error_iff.mpr (.inr ⟨a, mid, front, failed⟩)⟩

theorem map {r : Read α} (inner : r.Follows pieces) (f : α → β) : (f <$> r).Follows pieces := by
  have mapped := inner.bind fun a => pure (f a)
  rw [List.append_nil] at mapped
  exact mapped

theorem of_piece {r : Read α} {piece : Piece}
    (stands : ∀ front rest, piece.Spelled front → ∃ a, r (front ++ rest) = (.ok a, rest))
    (misses : ∀ bs e, piece.Refused bs e → ∃ rest, r bs = (.error e, rest)) :
    r.Follows [piece] := by
  constructor
  · intro bs rest
    rw [Piece.takes_singleton_iff]
    constructor
    · rintro ⟨a, read⟩
      obtain ⟨front, left, spelled, rfl⟩ | ⟨e, refused⟩ := piece.stands_or_refused bs
      · obtain ⟨b, answer⟩ := stands front left spelled
        cases read.symm.trans answer
        exact ⟨front, spelled, rfl⟩
      · obtain ⟨left, answer⟩ := misses bs e refused
        cases read.symm.trans answer
    · rintro ⟨front, spelled, rfl⟩
      exact stands front rest spelled
  · intro bs e
    rw [Piece.breaks_singleton_iff]
    constructor
    · rintro ⟨rest, failed⟩
      obtain ⟨front, left, spelled, rfl⟩ | ⟨e', refused⟩ := piece.stands_or_refused bs
      · obtain ⟨b, answer⟩ := stands front left spelled
        cases failed.symm.trans answer
      · obtain ⟨left, answer⟩ := misses bs e' refused
        cases failed.symm.trans answer
        exact refused
    · exact misses bs e

theorem block (width : Nat) (context : String) :
    (Read.block width context).Follows [.block width context] := by
  apply of_piece
  · intro front rest spelled
    cases spelled with
    | block _ fits =>
      subst fits
      exact ⟨⟨front, rfl⟩, by simp [Read.block]⟩
  · intro bs e refused
    cases refused with
    | short few => exact ⟨bs, by rw [Read.block, dif_neg (Nat.not_le_of_lt few)]⟩

theorem prefixed (context : String) : (Read.prefixed context).Follows [.name context] := by
  apply of_piece
  · intro front rest spelled
    cases spelled with
    | name name short => exact ⟨name, (prefixed_accepts context).read short rest⟩
  · intro bs e refused
    cases refused with
    | nameless failed => exact ⟨_, failed⟩

theorem expected (context : String) (expected : UInt32) (fault : UInt32 → DecodeError) :
    (do let found ← Read.varint context
        if found = expected then return () else Read.fail (fault found) : Read Unit).Follows
      [.number context expected fault] := by
  apply of_piece
  · intro front rest spelled
    cases spelled
    exact ⟨(), by rw [Action.expected_encode, if_pos rfl]⟩
  · intro bs e refused
    cases refused with
    | unreadable failed => exact ⟨_, bind_eq_error_iff.mpr (.inl failed)⟩
    | deviates other => exact ⟨_, by rw [Action.expected_encode, if_neg other]⟩

theorem behind {next : Read β} (following : next.Follows pieces) (context : String)
    (expected : UInt32) (fault : UInt32 → DecodeError) :
    (do let found ← Read.varint context
        if found = expected then next else Read.fail (fault found) : Read β).Follows
      (.number context expected fault :: pieces) := by
  rw [checked_bind]
  exact (Follows.expected context expected fault).bind fun _ => following

end Follows

end Read

def FunctionId.pieces : List Piece :=
  [.block 32 "module address", .name "module name", .name "function name"]

def StructTag.tagFault (callee : Callee) (tag : UInt32) : DecodeError :=
  match TypeTag.Kind.ofTag? tag with
  | none => .invalidTypeTag tag
  | some found => .unexpectedTypeTag callee .struct found

def StructTag.pieces (callee : Callee) : List Piece :=
  [.block 32 "struct address", .name "struct module name", .name "struct name",
    .number "struct type argument count" 0 (.coinTypeArgCountMismatch callee)]

def Transfer.pieces (callee : Callee) : List Piece :=
  [.number "argument count" 2 (.argCountMismatch callee 2),
    .number "receiver" 32 (.argLengthMismatch callee "receiver" 32), .block 32 "receiver",
    .number "amount" 8 (.argLengthMismatch callee "amount" 8), .block 8 "amount"]

def CoinTransfer.pieces (callee : Callee) : List Piece :=
  [.number "type argument count" 1 (.typeArgCountMismatch callee 1),
    .number "type tag" 7 (StructTag.tagFault callee)] ++ StructTag.pieces callee ++
    Transfer.pieces callee

def Action.pieces (callee : Callee) : List Piece :=
  match callee with
  | .unknown => []
  | .accountTransfer =>
    .number "type argument count" 0 (.typeArgCountMismatch callee 0) :: Transfer.pieces callee
  | .coinTransfer => CoinTransfer.pieces callee
  | .accountTransferCoins => CoinTransfer.pieces callee

theorem FunctionId.read_follows : FunctionId.read.Follows FunctionId.pieces :=
  ((Read.Follows.block 32 _).map _).bind fun _ => (Read.Follows.prefixed _).bind fun _ =>
    (Read.Follows.prefixed _).bind fun _ => .pure _

theorem TypeTag.Kind.read_encode (tag : UInt32) (rest : Bytes) :
    Kind.read (Varint.encode tag ++ rest) =
      match ofTag? tag with
      | some kind => (.ok kind, rest)
      | none => (.error (.invalidTypeTag tag), Varint.encode tag ++ rest) := by
  cases found : ofTag? tag <;>
    simp [Kind.read, Read.atomically, Read.bind_apply, Read.varint_encode, found]

theorem StructTag.read_follows (callee : Callee) :
    (StructTag.read callee).Follows (StructTag.pieces callee) :=
  ((Read.Follows.block 32 _).map _).bind fun _ => (Read.Follows.prefixed _).bind fun _ =>
    (Read.Follows.prefixed _).bind fun _ => (Read.Follows.pure _).behind _ _ _

namespace Action

/-- The tag of the type argument, before anything else of it is read. -/
def readTag (callee : Callee) : Read Unit := do
  let found ← TypeTag.Kind.read
  if found = .struct then return ()
  else .fail (.unexpectedTypeTag callee .struct found)

theorem readCoin_eq (callee : Callee) :
    readCoin callee = readTag callee >>= fun _ => StructTag.read callee :=
  Read.checked_bind _ _ _ _

theorem readTag_follows (callee : Callee) :
    (readTag callee).Follows [.number "type tag" 7 (StructTag.tagFault callee)] := by
  apply Read.Follows.of_piece
  · intro front rest spelled
    cases spelled
    refine ⟨(), ?_⟩
    rw [readTag, Read.bind_apply, TypeTag.Kind.read_encode]
    rfl
  · intro bs e refused
    cases refused with
    | unreadable failed =>
      refine ⟨bs, Read.bind_eq_error_iff.mpr (.inl ?_)⟩
      exact Read.atomically_of_error (Read.bind_eq_error_iff.mpr (.inl failed))
    | @deviates _ _ _ found rest other =>
      rw [readTag, Read.bind_apply, TypeTag.Kind.read_encode, StructTag.tagFault]
      cases kind : TypeTag.Kind.ofTag? found with
      | none => exact ⟨_, rfl⟩
      | some k =>
        have differs : k ≠ .struct := by
          rintro rfl
          exact other (TypeTag.Kind.eq_tag_of_ofTag? kind)
        exact ⟨rest, by simp [differs]⟩

theorem readTransfer_follows {callee : Callee} (classified : callee ≠ .unknown) :
    (readTransfer callee).Follows (Transfer.pieces callee) := by
  have count : (readArgCount callee).Follows
      [.number "argument count" 2 (.argCountMismatch callee 2)] :=
    Callee.args_of_classified classified ▸ Read.Follows.expected _ _ _
  exact count.bind fun _ => (Read.Follows.expected _ _ _).bind fun _ =>
    ((Read.Follows.block 32 _).map _).bind fun _ => (Read.Follows.expected _ _ _).bind fun _ =>
      ((((Read.Follows.block 8 _).map _).map _).map _).bind fun _ => .pure _

theorem readCoinTransfer_follows {callee : Callee} (typed : callee.typeArgs? = some 1) :
    (readCoinTransfer callee).Follows (CoinTransfer.pieces callee) := by
  have classified : callee ≠ .unknown := by
    rintro rfl
    cases typed
  have count : (readTypeArgCount callee).Follows
      [.number "type argument count" 1 (.typeArgCountMismatch callee 1)] := by
    have expected : callee.typeArgs?.getD 0 = 1 := by rw [typed, Option.getD_some]
    exact expected ▸ Read.Follows.expected _ _ _
  have coin : (readCoin callee).Follows
      (.number "type tag" 7 (StructTag.tagFault callee) :: StructTag.pieces callee) := by
    rw [readCoin_eq]
    exact (readTag_follows callee).bind fun _ => StructTag.read_follows callee
  exact count.bind fun _ => coin.bind fun _ => (readTransfer_follows classified).bind fun _ =>
    .pure _

theorem read_follows (callee : Callee) : (Action.read callee).Follows (Action.pieces callee) := by
  cases callee with
  | unknown => exact .pure _
  | accountTransfer =>
    exact (Read.Follows.expected _ _ _).bind fun _ => (readTransfer_follows (by decide)).map _
  | coinTransfer => exact (readCoinTransfer_follows rfl).map _
  | accountTransferCoins => exact (readCoinTransfer_follows rfl).map _

end Action

def Transfer.wire (t : Transfer) : Bytes :=
  [0x02, 0x20] ++ t.receiver.bytes ++ [0x08] ++ LittleEndian.toBytes 8 t.amount.toNat

def StructTag.wire (coin : StructTag) : Bytes :=
  [0x01, 0x07] ++ coin.address.bytes ++ coin.module.withLength ++ coin.name.withLength ++ [0x00]

namespace Action

/-- The exact encoding of what follows the names of a call, and the numbers of type arguments and
arguments that stand in it: none of a call that is not classified. -/
inductive Exact : Action → (typeArgs? args? : Option UInt32) → Bytes → Prop
  | unknown : Exact unknown none none []
  | accountTransfer (t : Transfer) :
      Exact (accountTransfer t) (some 0) (some 2) ([0x00] ++ t.wire)
  | coinTransfer (c : CoinTransfer) (bounded : c.coin.Bounded) :
      Exact (coinTransfer c) (some 1) (some 2) (c.coin.wire ++ c.transfer.wire)
  | accountTransferCoins (c : CoinTransfer) (bounded : c.coin.Bounded) :
      Exact (accountTransferCoins c) (some 1) (some 2) (c.coin.wire ++ c.transfer.wire)

theorem exact_iff {action : Action} {bs : Bytes} :
    action.Exact action.callee.typeArgs? action.callee.args? bs ↔
      action.Bounded ∧ bs = action.encode := by
  have written (c : CoinTransfer) : c.coin.wire ++ c.transfer.wire = c.encode := by
    rw [CoinTransfer.encode, StructTag.encodeTypeArg_eq, Transfer.encode_eq, StructTag.wire,
      Transfer.wire]
  constructor
  · intro exact
    cases action with
    | unknown =>
      cases exact
      exact ⟨by simp [Action.Bounded, coin?], rfl⟩
    | accountTransfer t =>
      cases exact
      exact ⟨by simp [Action.Bounded, coin?], by rw [Action.encode, Transfer.encode_eq]; rfl⟩
    | coinTransfer c =>
      cases exact with
      | coinTransfer _ bounded => exact ⟨by simpa [Action.Bounded, coin?] using bounded, written c⟩
    | accountTransferCoins c =>
      cases exact with
      | accountTransferCoins _ bounded =>
        exact ⟨by simpa [Action.Bounded, coin?] using bounded, written c⟩
  · rintro ⟨bounded, rfl⟩
    cases action with
    | unknown => exact .unknown
    | accountTransfer t =>
      rw [Action.encode, Transfer.encode_eq]
      exact .accountTransfer t
    | coinTransfer c =>
      rw [Action.encode, ← written]
      exact .coinTransfer c (bounded c.coin rfl)
    | accountTransferCoins c =>
      rw [Action.encode, ← written]
      exact .accountTransferCoins c (bounded c.coin rfl)

end Action

theorem Cursor.stop_eq {c : Cursor} {front more : Bytes} (split : c.remaining = front ++ more)
    (moved : 0 < front.length) : c.data.length - more.length = c.pos + front.length := by
  have width := congrArg List.length split
  rw [Cursor.remaining, List.length_drop, List.length_append] at width
  omega

namespace EntryCall

variable {exact : Bool} {target : FunctionId} {rest left : Bytes}

theorem read_apply (bounded : target.Bounded) (exact : Bool) (rest : Bytes) :
    EntryCall.read exact (target.encode ++ rest) =
      (EntryCall.mk target <$> Action.read (target.classify exact)) rest := by
  rw [EntryCall.read, Read.bind_apply, FunctionId.read_accepts.read bounded]
  rfl

theorem read_eq_ok_iff (bounded : target.Bounded) {call : EntryCall} :
    EntryCall.read exact (target.encode ++ rest) = (.ok call, left) ↔
      call.target = target ∧ call.callee = target.classify exact ∧
        ∃ bs, call.action.Exact call.callee.typeArgs? call.callee.args? bs ∧ rest = bs ++ left := by
  rw [read_apply bounded]
  constructor
  · intro read
    obtain ⟨action, mid, read, answer⟩ := Read.bind_eq_ok_iff.mp read
    cases answer
    obtain ⟨⟨known, held⟩, spelled⟩ := (Action.read_accepts _ _ _ _).mp read
    exact ⟨rfl, known, action.encode, Action.exact_iff.mpr ⟨held, rfl⟩, spelled⟩
  · rintro ⟨rfl, known, bs, exact, rfl⟩
    obtain ⟨held, rfl⟩ := Action.exact_iff.mp exact
    refine Read.bind_eq_ok_iff.mpr ⟨call.action, left, ?_, rfl⟩
    exact (Action.read_accepts _).read ⟨known, held⟩ left

theorem read_eq_error_iff (bounded : target.Bounded) {e : DecodeError} :
    (∃ left, EntryCall.read exact (target.encode ++ rest) = (.error e, left)) ↔
      Breaks (Action.pieces (target.classify exact)) rest e := by
  rw [read_apply bounded]
  exact ((Action.read_follows _).map _).breaks rest e

theorem cursor_read_eq_ok_iff (bounded : target.Bounded) {c stop : Cursor}
    (split : c.remaining = target.encode ++ rest) {call : EntryCall} :
    c.read (EntryCall.read exact) = .ok (call, stop) ↔
      call.target = target ∧ call.callee = target.classify exact ∧
        ∃ bs more, call.action.Exact call.callee.typeArgs? call.callee.args? bs ∧
          rest = bs ++ more ∧ stop = ⟨c.data, c.pos + target.encode.length + bs.length⟩ := by
  have ends {bs more : Bytes} (follows : rest = bs ++ more) :
      c.data.length - more.length = c.pos + target.encode.length + bs.length := by
    have whole : c.remaining = (target.encode ++ bs) ++ more := by
      rw [split, follows, List.append_assoc]
    have moved := target.length_encode
    rw [Cursor.stop_eq whole (by rw [List.length_append]; omega), List.length_append,
      Nat.add_assoc]
  rw [Cursor.read_eq_ok_iff_remaining, split]
  constructor
  · rintro ⟨more, read, rfl⟩
    obtain ⟨same, known, bs, exact, follows⟩ := (read_eq_ok_iff bounded).mp read
    exact ⟨same, known, bs, more, exact, follows, by rw [ends follows]⟩
  · rintro ⟨same, known, bs, more, exact, follows, rfl⟩
    refine ⟨more, ?_, by rw [ends follows]⟩
    exact (read_eq_ok_iff bounded).mpr ⟨same, known, bs, exact, follows⟩

end EntryCall

/-- If the names of a call cannot be read, that is the error. Otherwise they classify the function.
Nothing is read behind the names of a function that is not classified. Of a classified one the exact
encoding must follow: the call is read up to the end of it with the values that stand there, or the
leftmost piece that is not there is the error. -/
theorem calls_are_read_rigidly (exact : Bool) (c : Cursor) :
    (∀ e, Breaks FunctionId.pieces c.remaining e → c.read (EntryCall.read exact) = .error e) ∧
    ((∀ e, ¬ Breaks FunctionId.pieces c.remaining e) →
      ∃ target rest, target.Bounded ∧ c.remaining = target.encode ++ rest ∧
        (∀ call stop, c.read (EntryCall.read exact) = .ok (call, stop) ↔
          call.target = target ∧ call.callee = target.classify exact ∧
            ∃ bs more, call.action.Exact call.callee.typeArgs? call.callee.args? bs ∧
              rest = bs ++ more ∧
              stop = ⟨c.data, c.pos + target.encode.length + bs.length⟩) ∧
        (∀ e, c.read (EntryCall.read exact) = .error e ↔
          Breaks (Action.pieces (target.classify exact)) rest e) ∧
        (target.classify exact = .unknown →
          c.read (EntryCall.read exact) =
            .ok (⟨target, .unknown⟩, ⟨c.data, c.pos + target.encode.length⟩))) := by
  constructor
  · intro e broken
    obtain ⟨rest, failed⟩ := (FunctionId.read_follows.breaks _ _).mpr broken
    exact Cursor.read_eq_error_iff.mpr ⟨rest, Read.bind_eq_error_iff.mpr (.inl failed)⟩
  intro unbroken
  cases named : FunctionId.read c.remaining with
  | mk result rest =>
    cases result with
    | error e => exact absurd ((FunctionId.read_follows.breaks _ _).mp ⟨rest, named⟩) (unbroken e)
    | ok target =>
      obtain ⟨bounded, split⟩ := (FunctionId.read_accepts _ _ _).mp named
      refine ⟨target, rest, bounded, split, ?_, ?_, ?_⟩
      · intro call stop
        exact EntryCall.cursor_read_eq_ok_iff bounded split
      · intro e
        rw [Cursor.read_eq_error_iff, split]
        exact EntryCall.read_eq_error_iff bounded
      · intro unknown
        exact (EntryCall.cursor_read_eq_ok_iff bounded split).mpr
          ⟨rfl, unknown.symm, [], rest, .unknown, rfl, rfl⟩

def sampleNumberCoin : Bytes :=
  FunctionId.encode ⟨⟨.framework, Utf8.encode "coin"⟩, Utf8.encode "transfer"⟩ ++ [0x01, 0x01]

theorem calls_are_read_rigidly_sampleNumberCoin :
    (Cursor.start sampleNumberCoin).read (EntryCall.read true) =
        .error (.unexpectedTypeTag .coinTransfer .struct .u8) ∧
      (Cursor.start (sampleNumberCoin.take 40)).read (EntryCall.read true) =
        .error (.unexpectedEnd "function name") := by
  constructor
  · have named : FunctionId.read sampleNumberCoin =
        (.ok ⟨⟨.framework, Utf8.encode "coin"⟩, Utf8.encode "transfer"⟩, [0x01, 0x01]) := by
      decide +kernel
    have unbroken : ∀ e, ¬ Breaks FunctionId.pieces sampleNumberCoin e := by
      intro e broken
      obtain ⟨rest, failed⟩ := (FunctionId.read_follows.breaks _ _).mpr broken
      cases named.symm.trans failed
    obtain ⟨target, rest, bounded, split, -, refused, -⟩ :=
      (calls_are_read_rigidly true (Cursor.start sampleNumberCoin)).2 unbroken
    cases named.symm.trans ((FunctionId.read_accepts _ _ _).mpr ⟨bounded, split⟩)
    have number : (Piece.number "type tag" 7 (StructTag.tagFault .coinTransfer)).Refused
        (Varint.encode 1 ++ []) (StructTag.tagFault .coinTransfer 1) := .deviates (by decide)
    exact (refused _).mpr (.later .number (.here number))
  · refine (calls_are_read_rigidly true _).1 _ ((FunctionId.read_follows.breaks _ _).mp ?_)
    exact ⟨(sampleNumberCoin.take 40).drop 37, by decide +kernel⟩

end ClearSign
