import ClearSign.Proofs.Arguments
import ClearSign.Proofs.HexTable
import ClearSign.Proofs.PlainText
import ClearSign.Proofs.Refusals
import ClearSign.Proofs.ShownNames

namespace ClearSign

theorem Utf8.encode_append (s t : String) : encode (s ++ t) = encode s ++ encode t := by
  rw [encode, String.toList_append, List.flatMap_append]
  rfl

theorem Message.PlainText.encode_lossy {message : Bytes} (plain : PlainText message) :
    Utf8.encode (String.ofList (Utf8.lossy message)) = message := by
  obtain ⟨cs, -, rfl⟩ := plain
  rw [Utf8.lossy_encode, Utf8.encode, String.toList_ofList]

theorem Request.request?_decodeForHost (o : Options) (input : Bytes) :
    (decodeForHost o input).request? =
      match decode o input with
      | .ok request => some request
      | .error _ => none := by
  unfold decodeForHost decode
  cases decodeTraced o input with
  | mk events result => cases result <;> rfl

theorem Request.eq_of_decode_plainMessage {o : Options} {input message : Bytes}
    (decoded : decode o input = .ok (.plainMessage message)) : message = input := by
  obtain ⟨-, spelled⟩ := decode_eq_ok_iff.mp decoded
  cases spelled
  rfl

namespace Report

/-- The program ends well with this output. -/
def Ending.Prints (ending : Ending) (output : String) : Prop :=
  ending.exitCode = 0 ∧ ending.output = output

/-- The program ends with this complaint, and nothing is printed. -/
def Ending.Fails (ending : Ending) (complaint : String) : Prop :=
  ending = .failed complaint ∧ ending.exitCode = 101 ∧ ending.output = ""

/-- The last line of an output, which has other lines before it. -/
def FinalLine (output line : String) : Prop :=
  '\n' ∉ line.toList ∧ ∃ earlier, output = earlier ++ "\n" ++ line ++ "\n"

theorem FinalLine.unique {output line line' : String} (final : FinalLine output line)
    (final' : FinalLine output line') : line = line' := by
  obtain ⟨whole, earlier, rfl⟩ := final
  obtain ⟨whole', earlier', same⟩ := final'
  have newline : "\n".toList = ['\n'] := rfl
  have turned := congrArg (fun text => text.toList.reverse) same
  simp only [String.toList_append, newline, List.reverse_append, List.reverse_singleton,
    List.singleton_append] at turned
  have lines := append_cons_inj_of_first (mt List.mem_reverse.mp whole)
    (mt List.mem_reverse.mp whole') (List.cons.inj turned).2
  exact String.toList_injective (List.reverse_injective lines.1)

theorem finalLine_of_lines (front : List String) (before : String) {line : String}
    (whole : '\n' ∉ line.toList) :
    FinalLine (String.join ((front ++ [before, line]).map (· ++ "\n"))) line := by
  refine ⟨whole, String.join (front.map (· ++ "\n")) ++ before, ?_⟩
  rw [List.map_append, String.join_append]
  simp only [List.map_cons, List.map_nil, String.join_cons, String.join_nil, String.append_empty,
    String.append_assoc]

section Codec

variable {hex : Hex.Codec}

theorem lines_of_accepted {input : Bytes} {request : Request}
    (accepted : Request.decode {} input = .ok request) :
    lines hex input =
      [s!"Input size: {input.length} bytes", "Status: Ok (1)", "",
        s!"=== {request.kind.name} ==="] ++ requestLines hex request ++
        ["", s!"Blind signing required: {request.isBlind}"] := by
  have request? := Request.request?_decodeForHost {} input
  have status := Request.status_decodeForHost {} input
  rw [accepted] at request? status
  simp only [lines, request?, status]
  rfl

theorem lines_of_refused {input : Bytes} {e : DecodeError}
    (refused : Request.decode {} input = .error e) :
    lines hex input =
      [s!"Input size: {input.length} bytes", s!"Status: {e.status.name} ({e.status.code})"] := by
  have request? := Request.request?_decodeForHost {} input
  have status := Request.status_decodeForHost {} input
  rw [refused] at request? status
  simp only [lines, request?, status]
  rfl

theorem finalLine_of_accepted {input : Bytes} {request : Request}
    (accepted : Request.decode {} input = .ok request) :
    FinalLine (text hex input) s!"Blind signing required: {request.isBlind}" := by
  have whole : '\n' ∉ (s!"Blind signing required: {request.isBlind}").toList := by
    cases request.isBlind <;> decide
  rw [text, lines_of_accepted accepted]
  exact finalLine_of_lines _ _ whole

theorem finalLine_of_refused {input : Bytes} {e : DecodeError}
    (refused : Request.decode {} input = .error e) :
    FinalLine (text hex input) s!"Status: {e.status.name} ({e.status.code})" := by
  have whole : '\n' ∉ (s!"Status: {e.status.name} ({e.status.code})").toList := by
    cases e.status <;> decide
  rw [text, lines_of_refused refused]
  exact finalLine_of_lines [] _ whole

theorem finalLine_iff_of_accepted {input : Bytes} {request : Request}
    (accepted : Request.decode {} input = .ok request) {line : String} :
    FinalLine (text hex input) line ↔ line = s!"Blind signing required: {request.isBlind}" := by
  constructor
  · intro final
    exact final.unique (finalLine_of_accepted accepted)
  · rintro rfl
    exact finalLine_of_accepted accepted

theorem tells_blind_signing_iff {input : Bytes} :
    (∃ answer, FinalLine (text hex input) ("Blind signing required:" ++ answer)) ↔
      ∃ request, Request.decode {} input = .ok request := by
  constructor
  · rintro ⟨answer, final⟩
    cases decoded : Request.decode {} input with
    | ok request => exact ⟨request, rfl⟩
    | error e =>
      have same : "Blind signing required:" ++ answer =
          "Status: " ++ e.status.name ++ " (" ++ toString e.status.code ++ ")" :=
        final.unique (finalLine_of_refused decoded)
      have first := congrArg (fun line => line.toList.head?) same
      simp [String.toList_append] at first
  · rintro ⟨request, decoded⟩
    exact ⟨s!" {request.isBlind}", finalLine_of_accepted decoded⟩

theorem text_of_plainMessage {input message : Bytes}
    (decoded : Request.decode {} input = .ok (.plainMessage message)) :
    text hex input =
      "Input size: " ++ toString input.length ++
        " bytes\nStatus: Ok (1)\n\n=== PlainMessage ===\nText: " ++
        String.ofList (Utf8.lossy message) ++
        "\n\nBlind signing required: " ++
          toString (Request.plainMessage message).isBlind ++ "\n" := by
  have shown : lines hex input =
      ["Input size: " ++ toString input.length ++ " bytes", "Status: Ok (1)", "",
        "=== PlainMessage ===", "Text: " ++ String.ofList (Utf8.lossy message), "",
        "Blind signing required: " ++ toString (Request.plainMessage message).isBlind] :=
    lines_of_accepted decoded
  apply String.toList_injective
  rw [text, shown]
  simp only [String.toList_join, List.map_cons, List.map_nil, List.flatMap_cons, List.flatMap_nil,
    String.toList_append, List.append_assoc]
  rfl

theorem encode_text_of_plainMessage {input message : Bytes}
    (decoded : Request.decode {} input = .ok (.plainMessage message)) :
    Utf8.encode (text hex input) =
      Utf8.encode ("Input size: " ++ toString input.length ++
        " bytes\nStatus: Ok (1)\n\n=== PlainMessage ===\nText: ") ++
        message ++
        Utf8.encode ("\n\nBlind signing required: " ++
          toString (Request.plainMessage message).isBlind ++ "\n") := by
  have plain : Message.PlainText message := by
    rw [Request.eq_of_decode_plainMessage decoded]
    exact Message.plainText_of_decode decoded rfl
  rw [text_of_plainMessage decoded]
  simp only [Utf8.encode_append, plain.encode_lossy, List.append_assoc]

end Codec

/-- Every argument has one core. If that has an even number of bytes that are all digits, the
argument denotes bytes, and it is the report on these that is printed, for any argument that denotes
them. Otherwise nothing is printed, and the complaint is about the odd number or about the first
byte that is no digit. The last line of a report tells whether blind signing is required just if the
request is decoded. Nothing is replaced in a plain message, which is printed byte by byte. -/
theorem report_depends_on_denoted_bytes (hex : Hex.Codec) (lawful : hex.Lawful) :
    (∀ argument, ∃! core, Core argument core) ∧
    (∀ argument core, Core argument core →
      ((∃ input, Denotes argument input) ↔
        (Utf8.encode core).length % 2 = 0 ∧ ∀ b ∈ Utf8.encode core, Hex.IsDigit b) ∧
      ((Utf8.encode core).length % 2 = 1 →
        (ofArgument hex (some argument)).Fails
          ("Invalid hex input: " ++ hex.debug .oddLength)) ∧
      ((¬ ∀ b ∈ Utf8.encode core, Hex.IsDigit b) →
        ∃ index b, Hex.FirstFault (Utf8.encode core) index b) ∧
      ∀ index b, (Utf8.encode core).length % 2 = 0 →
        Hex.FirstFault (Utf8.encode core) index b →
        (ofArgument hex (some argument)).Fails
          ("Invalid hex input: " ++
            hex.debug (.invalidHexCharacter (Char.ofNat b.toNat) index))) ∧
    (∀ argument input, Denotes argument input →
      (ofArgument hex (some argument)).Prints (text hex input)) ∧
    (∀ input,
      ((∃ answer, FinalLine (text hex input) ("Blind signing required:" ++ answer)) ↔
        ∃ request, Request.decode {} input = .ok request) ∧
      ∀ request, Request.decode {} input = .ok request → ∀ line,
        FinalLine (text hex input) line ↔
          line = "Blind signing required: " ++ toString request.isBlind) ∧
    (∀ o input message, Request.decode o input = .ok (.plainMessage message) →
      message = input ∧ Utf8.encode (String.ofList (Utf8.lossy message)) = message) ∧
    ∀ input message, Request.decode {} input = .ok (.plainMessage message) →
      Utf8.encode (text hex input) =
        Utf8.encode ("Input size: " ++ toString input.length ++
          " bytes\nStatus: Ok (1)\n\n=== PlainMessage ===\nText: ") ++
          message ++
          Utf8.encode ("\n\nBlind signing required: " ++
            toString (Request.plainMessage message).isBlind ++ "\n") := by
  refine ⟨existsUnique_core, ?_, ?_, ?_, ?_, fun _ _ => encode_text_of_plainMessage⟩
  · intro argument core found
    refine ⟨exists_denoted_iff found, ?_, Hex.exists_firstFault, ?_⟩
    · intro odd
      rw [ofArgument_of_odd lawful found odd]
      exact ⟨rfl, rfl, rfl⟩
    · intro index b even first
      rw [ofArgument_of_fault lawful found even first]
      exact ⟨rfl, rfl, rfl⟩
  · intro argument input denoted
    rw [ofArgument_of_denotes lawful denoted]
    exact ⟨rfl, rfl⟩
  · intro input
    refine ⟨tells_blind_signing_iff, ?_⟩
    intro request accepted line
    exact finalLine_iff_of_accepted accepted
  · intro o input message decoded
    have same := Request.eq_of_decode_plainMessage decoded
    subst same
    exact ⟨rfl, (Message.plainText_of_decode decoded rfl).encode_lossy⟩

/-- Two marks, blanks and both letter cases around a message; an odd number of digits; a letter
outside ASCII between digits. -/
theorem report_depends_on_denoted_bytes_marked :
    (ofArgument Hex.table (some "\u2003 0x0x48C3a9\n")).Prints (text Hex.table [0x48, 0xC3, 0xA9]) ∧
      (ofArgument Hex.table (some "0x123")).Fails "Invalid hex input: OddLength" ∧
      (ofArgument Hex.table (some "0é0")).Fails
        "Invalid hex input: InvalidHexCharacter \x7b c: 'Ã', index: 1 \x7d" ∧
      FinalLine (text Hex.table [0x48, 0xC3, 0xA9]) "Blind signing required: false" ∧
      Utf8.encode (text Hex.table [0x48, 0xC3, 0xA9]) =
        Utf8.encode "Input size: 3 bytes\nStatus: Ok (1)\n\n=== PlainMessage ===\nText: " ++
          [0x48, 0xC3, 0xA9] ++ Utf8.encode "\n\nBlind signing required: false\n" := by
  obtain ⟨-, refused, printed, told, -, shown⟩ :=
    report_depends_on_denoted_bytes Hex.table Hex.table_lawful
  have denoted : Denotes "\u2003 0x0x48C3a9\n" [0x48, 0xC3, 0xA9] :=
    ⟨"48C3a9", core_iff.mpr (by decide +kernel), by decide +kernel⟩
  have odd : Core "0x123" "123" := core_iff.mpr (by decide +kernel)
  have foreign : Core "0é0" "0é0" := core_iff.mpr (by decide +kernel)
  have decoded : Request.decode {} [0x48, 0xC3, 0xA9] =
      .ok (.plainMessage [0x48, 0xC3, 0xA9]) := by decide +kernel
  have complaint : "Invalid hex input: InvalidHexCharacter \x7b c: 'Ã', index: 1 \x7d" =
      "Invalid hex input: " ++ Hex.table.debug (.invalidHexCharacter (Char.ofNat 0xC3) 1) := by
    decide +kernel
  refine ⟨printed _ _ denoted, (refused _ _ odd).2.1 (by decide), ?_, ?_, ?_⟩
  · rw [complaint]
    exact (refused _ _ foreign).2.2.2 1 0xC3 (by decide) ⟨rfl, by decide +kernel, by decide +kernel⟩
  · exact ((told _).2 _ decoded _).mpr (by decide)
  · exact shown _ _ decoded

end Report

end ClearSign
