import ClearSign.Proofs.FirstFault
import ClearSign.Proofs.Grammar.Request
import ClearSign.Proofs.Message

namespace ClearSign

/-- The first byte of one separator or the first two bytes of the other, whatever follows. -/
def Domain.Begun (input : Bytes) : Prop :=
  Domain.rawTransaction.separator.take 1 <+: input ∨
    Domain.rawTransactionWithData.separator.take 2 <+: input

namespace Message

theorem PlainText.spells {message : Bytes} (text : PlainText message) :
    ∃ cs, (∀ c ∈ cs, Presentable c) ∧ Utf8.Spells message cs := by
  obtain ⟨cs, presentable, encoded⟩ := text
  refine ⟨cs, presentable, fun c member => ?_, encoded⟩
  obtain ⟨low, high, -⟩ := presentable c member
  exact ⟨low, high⟩

theorem PlainText.append {front rest : Bytes} (text : PlainText front) (behind : PlainText rest) :
    PlainText (front ++ rest) := by
  obtain ⟨cs, presentable, rfl⟩ := text
  obtain ⟨ds, presentable', rfl⟩ := behind
  exact ⟨cs ++ ds, List.forall_mem_append.mpr ⟨presentable, presentable'⟩,
    List.flatMap_append.symm⟩

theorem PlainText.of_append {front rest : Bytes} (text : PlainText front)
    (whole : PlainText (front ++ rest)) : PlainText rest := by
  obtain ⟨cs, presentable, spelled⟩ := whole.spells
  obtain ⟨ds, -, first⟩ := text.spells
  have ended : Utf8.next? [] = none := rfl
  have same : front ++ rest = (front ++ rest) ++ [] := (List.append_nil _).symm
  obtain ⟨es, rfl⟩ := first.isPrefix spelled ended same
  refine ⟨es, fun c member => presentable c (List.mem_append_right ds member), ?_⟩
  have encoded := spelled.encoded
  rw [List.flatMap_append, ← first.encoded] at encoded
  exact List.append_cancel_left encoded

theorem PlainText.append_iff {front rest : Bytes} (text : PlainText front) :
    PlainText (front ++ rest) ↔ PlainText rest :=
  ⟨text.of_append, text.append⟩

theorem not_plainText_of_next? {bs : Bytes} (present : bs ≠ [])
    (missing : Utf8.next? bs = none) : ¬ PlainText bs := by
  intro text
  obtain ⟨cs, -, spelled⟩ := text.spells
  cases cs with
  | nil => exact present spelled.encoded
  | cons c cs =>
    obtain ⟨tail, -, found⟩ := spelled.next? []
    rw [List.append_nil, missing] at found
    cases found

theorem not_plainText_of_begun {input : Bytes} (begun : Domain.Begun input) :
    ¬ PlainText input := by
  rcases begun with ⟨rest, rfl⟩ | ⟨rest, rfl⟩
  · -- the byte continues a character, and starts none
    have missing : Utf8.next? (0xb5 :: rest) = none := by
      simp [Utf8.next?, Utf8.scalar?, Utf8.value?]
    exact not_plainText_of_next? (List.cons_ne_nil _ _) missing
  · have circumflex : PlainText [0x5e] := ⟨['^'], by simp [Presentable], by decide⟩
    have missing : Utf8.next? (0xfa :: rest) = none := by
      simp [Utf8.next?, Utf8.scalar?, Utf8.value?]
    have split : Domain.rawTransactionWithData.separator.take 2 ++ rest =
        [0x5e] ++ 0xfa :: rest := rfl
    rw [split, circumflex.append_iff]
    exact not_plainText_of_next? (List.cons_ne_nil _ _) missing

theorem kind_ofMessage_iff {message : Bytes} :
    (Request.ofMessage message).kind = .plainMessage ↔ PlainText message := by
  rw [← isPlain_iff, Request.ofMessage]
  split
  · next plain => exact ⟨fun _ => plain, fun _ => rfl⟩
  · next raw =>
    constructor
    · intro same
      cases same
    · intro plain
      exact absurd plain raw

theorem ofMessage_of_not_plainText {message : Bytes} (raw : ¬ PlainText message) :
    Request.ofMessage message = .rawMessage message :=
  if_neg fun plain => raw (isPlain_iff.mp plain)

theorem plainText_of_decode {o : Options} {input : Bytes} {request : Request}
    (decoded : Request.decode o input = .ok request) (shown : request.kind = .plainMessage) :
    PlainText input := by
  obtain ⟨-, spelled⟩ := Request.decode_eq_ok_iff.mp decoded
  cases spelled with
  | plainMessage _ separate terminated plain => exact isPlain_iff.mp plain
  | transaction | transactionWithData | rawMessage => cases shown

open Request

/-- A message is plain just if it is the encoding of presentable characters, and behind a plain
message just if what follows is. It is not interrupted just if it is free of NUL up to a run of
NULs at its end. What begins as a separator is never plain, neither classified as a message nor
decoded. -/
theorem text_is_judged_by_character :
    (∀ message, (ofMessage message).kind = .plainMessage ↔ PlainText message) ∧
    (∀ front rest, (ofMessage front).kind = .plainMessage →
      ((ofMessage (front ++ rest)).kind = .plainMessage ↔
        (ofMessage rest).kind = .plainMessage)) ∧
    (∀ message, isInterrupted message = false ↔ Uninterrupted message) ∧
    ∀ input, Domain.Begun input →
      ofMessage input = .rawMessage input ∧
      ∀ o request, decode o input = .ok request → request.kind ≠ .plainMessage := by
  refine ⟨fun _ => kind_ofMessage_iff, ?_, fun _ => isInterrupted_eq_false_iff, ?_⟩
  · intro front rest plain
    rw [kind_ofMessage_iff, kind_ofMessage_iff]
    exact (kind_ofMessage_iff.mp plain).append_iff
  · intro input begun
    have raw := not_plainText_of_begun begun
    refine ⟨ofMessage_of_not_plainText raw, ?_⟩
    intro o request decoded shown
    exact raw (plainText_of_decode decoded shown)

/-- Behind a letter of two bytes, and at the first three bytes of a separator. -/
theorem text_is_judged_by_character_cut :
    (ofMessage [0xc3, 0xa9]).kind = .plainMessage ∧
      ((ofMessage ([0xc3, 0xa9] ++ [0x07])).kind = .plainMessage ↔
        (ofMessage [0x07]).kind = .plainMessage) ∧
      Domain.Begun [0x5e, 0xfa, 0x3c] ∧
      ofMessage [0x5e, 0xfa, 0x3c] = .rawMessage [0x5e, 0xfa, 0x3c] := by
  obtain ⟨plain_iff, behind, -, separate⟩ := text_is_judged_by_character
  have letter : (ofMessage [0xc3, 0xa9]).kind = .plainMessage :=
    (plain_iff _).mpr ⟨['é'], by simp [Presentable], by decide⟩
  have begun : Domain.Begun [0x5e, 0xfa, 0x3c] := .inr (by decide)
  exact ⟨letter, behind _ _ letter, begun, (separate _ begun).1⟩

end Message

end ClearSign
