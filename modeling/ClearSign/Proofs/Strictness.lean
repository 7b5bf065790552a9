import ClearSign.Proofs.ClearSigning

namespace ClearSign

namespace FunctionId

theorem classify_exact_of_framework {f : FunctionId}
    (framework : f.module.address = .framework) : f.classify true = f.classify false := by
  have exact : f.module.isFramework true = true := by
    simp [ModuleId.isFramework, framework]
  have last : f.module.isFramework false = true := by
    rw [ModuleId.isFramework, framework]
    rfl
  unfold classify
  rw [exact, last]

theorem classify_exact_of_other {f : FunctionId} (other : f.module.address ≠ .framework) :
    f.classify true = .unknown := by
  have outside : f.module.isFramework true = false := by
    simp [ModuleId.isFramework, other]
  unfold classify
  rw [outside]
  rfl

end FunctionId

namespace EntryCall

/-- The call that is classified at the exact framework address only. -/
def strictly (call : EntryCall) : EntryCall :=
  if call.callee ≠ .unknown ∧ call.target.module.address ≠ .framework then
    { call with action := .unknown }
  else call

theorem strictly_of_framework {call : EntryCall}
    (framework : call.target.module.address = .framework) : call.strictly = call :=
  if_neg fun foreign => foreign.2 framework

theorem strictly_of_unknown {call : EntryCall} (unknown : call.callee = .unknown) :
    call.strictly = call :=
  if_neg fun foreign => foreign.1 unknown

theorem strictly_of_foreign {call : EntryCall} (classified : call.callee ≠ .unknown)
    (foreign : call.target.module.address ≠ .framework) :
    call.strictly = { call with action := .unknown } :=
  if_pos ⟨classified, foreign⟩

theorem Readable.exact_of_framework {call : EntryCall}
    (framework : call.target.module.address = .framework) :
    call.Readable true ↔ call.Readable false := by
  unfold Readable
  rw [FunctionId.classify_exact_of_framework framework]

theorem Readable.exact_of_unknown {call : EntryCall}
    (foreign : call.target.module.address ≠ .framework) (readable : call.Readable false)
    (unknown : call.callee = .unknown) : call.Readable true := by
  refine ⟨readable.1, readable.2.1, ?_⟩
  rw [unknown, FunctionId.classify_exact_of_other foreign]

theorem Readable.framework_of_exact {call : EntryCall} (readable : call.Readable true)
    (classified : call.callee ≠ .unknown) : call.target.module.address = .framework := by
  apply Decidable.byContradiction
  intro foreign
  rw [readable.2.2, FunctionId.classify_exact_of_other foreign] at classified
  exact classified rfl

end EntryCall

def Payload.strictly : Payload → Payload
  | script body => .script body
  | entryFunction call => .entryFunction call.strictly
  | multisig body => .multisig body

def Request.mapPayload (f : Payload → Payload) : Request → Request
  | transaction tx => .transaction { tx with payload := f tx.payload }
  | transactionWithData body => .transactionWithData body
  | plainMessage message => .plainMessage message
  | rawMessage message => .rawMessage message

/-- What a request that was classified leniently is strictly. -/
def Request.strictly : Request → Request :=
  mapPayload Payload.strictly

/-- The bytes that were the arguments of a call are a gap behind it if it is not classified. -/
theorem Payload.Spelled.strictly {maxLength : Nat} {payload : Payload} {body : Bytes}
    (spelled : payload.Spelled { maxLength, exactFramework := false } body) :
    payload.strictly.Spelled { maxLength, exactFramework := true } body := by
  cases spelled with
  | script s => exact .script s
  | multisig s => exact .multisig s
  | call call gap readable tight =>
    change (Payload.entryFunction call.strictly).Spelled _ _
    by_cases framework : call.target.module.address = .framework
    · rw [EntryCall.strictly_of_framework framework]
      exact .call call gap ((EntryCall.Readable.exact_of_framework framework).mpr readable) tight
    · by_cases unknown : call.callee = .unknown
      · rw [EntryCall.strictly_of_unknown unknown]
        exact .call call gap (readable.exact_of_unknown framework unknown) tight
      · rw [EntryCall.strictly_of_foreign unknown framework]
        have split : call.encode ++ gap =
            { call with action := .unknown : EntryCall }.encode ++ (call.action.encode ++ gap) := by
          simp [EntryCall.encode, Action.encode]
        rw [split]
        refine .call _ _ ⟨readable.1, ?_, ?_⟩ fun classified => absurd rfl classified
        · rintro coin ⟨⟩
        · exact (FunctionId.classify_exact_of_other framework).symm

theorem Payload.Spelled.leniently {maxLength : Nat} {payload : Payload} {body : Bytes}
    (spelled : payload.Spelled { maxLength, exactFramework := true } body)
    (classified : ∀ call, payload = .entryFunction call → call.callee ≠ .unknown) :
    payload.Spelled { maxLength, exactFramework := false } body := by
  cases spelled with
  | script s => exact .script s
  | multisig s => exact .multisig s
  | call call gap readable tight =>
    have framework := readable.framework_of_exact (classified call rfl)
    exact .call call gap ((EntryCall.Readable.exact_of_framework framework).mp readable) tight

namespace Request

theorem Spelled.mapPayload {maxLength : Nat} {exact exact' : Bool} {f : Payload → Payload}
    {request : Request} {input : Bytes}
    (spelled : request.Spelled { maxLength, exactFramework := exact } input)
    (payloads : ∀ tx body, request = .transaction tx →
      tx.payload.Spelled { maxLength, exactFramework := exact } body →
        (f tx.payload).Spelled { maxLength, exactFramework := exact' } body) :
    (request.mapPayload f).Spelled { maxLength, exactFramework := exact' } input := by
  cases spelled with
  | transaction tx body payload =>
    exact .transaction { tx with payload := f tx.payload } body (payloads tx body rfl payload)
  | transactionWithData body terminated => exact .transactionWithData body terminated
  | plainMessage _ separate terminated plain =>
    exact .plainMessage input separate terminated plain
  | rawMessage _ separate terminated raw => exact .rawMessage input separate terminated raw

theorem decode_strictly {maxLength : Nat} {request : Request} {input : Bytes}
    (decoded : decode { maxLength, exactFramework := false } input = .ok request) :
    decode { maxLength, exactFramework := true } input = .ok request.strictly := by
  obtain ⟨fits, spelled⟩ := decode_eq_ok_iff.mp decoded
  refine decode_eq_ok_iff.mpr ⟨fits, spelled.mapPayload ?_⟩
  intro tx body _ payload
  exact payload.strictly

theorem decode_leniently {maxLength : Nat} {request : Request} {input : Bytes}
    (decoded : decode { maxLength, exactFramework := true } input = .ok request)
    (classified : ∀ call ∈ request.call?, call.callee ≠ .unknown) :
    decode { maxLength, exactFramework := false } input = .ok request := by
  obtain ⟨fits, spelled⟩ := decode_eq_ok_iff.mp decoded
  have unchanged : request.mapPayload id = request := by
    cases request <;> rfl
  rw [← unchanged]
  refine decode_eq_ok_iff.mpr ⟨fits, spelled.mapPayload ?_⟩
  rintro ⟨sender, number, payload, footer⟩ body rfl spelled
  refine spelled.leniently ?_
  rintro call rfl
  exact classified call rfl

theorem classified_of_clear {request : Request} (clear : request.blindReason? = none) :
    ∀ call ∈ request.call?, call.callee ≠ .unknown := by
  intro call called
  match request, called with
  | .transaction ⟨_, _, .entryFunction _, _⟩, rfl =>
    exact Clear.blindReason?_call_eq_none_iff.mp clear

end Request

/-- Strict classification refines lenient classification. What is decoded leniently is decoded
strictly, as the same request but for a call of a function that lies not at the exact framework
address; what is classified strictly, or is no call, is the same leniently; and what is refused
strictly is refused leniently. So what may be signed strictly while blind signing is off may be
signed leniently too, as the same request. -/
theorem strict_refines_lenient (maxLength : Nat) (input : Bytes) :
    (∀ request, Request.decode { maxLength, exactFramework := false } input = .ok request →
      Request.decode { maxLength, exactFramework := true } input = .ok request.strictly) ∧
    (∀ request, Request.decode { maxLength, exactFramework := true } input = .ok request →
      (∀ call ∈ request.call?, call.callee ≠ .unknown) →
        Request.decode { maxLength, exactFramework := false } input =
          Request.decode { maxLength, exactFramework := true } input) ∧
    (∀ e, Request.decode { maxLength, exactFramework := true } input = .error e →
      ∃ e', Request.decode { maxLength, exactFramework := false } input = .error e') ∧
    ∀ request, Request.decode { maxLength, exactFramework := true } input = .ok request →
      SigningPolicy.check { allowBlindSigning := false } request = .ok () →
        Request.decode { maxLength, exactFramework := false } input = .ok request := by
  refine ⟨?_, ?_, ?_, ?_⟩
  · intro request decoded
    exact Request.decode_strictly decoded
  · intro request decoded classified
    rw [decoded, Request.decode_leniently decoded classified]
  · intro e refused
    cases lenient : Request.decode { maxLength, exactFramework := false } input with
    | error e' => exact ⟨e', rfl⟩
    | ok request =>
      rw [Request.decode_strictly lenient] at refused
      cases refused
  · intro request decoded allowed
    have clear := SigningPolicy.check_off_iff.mp allowed
    exact Request.decode_leniently decoded (Request.classified_of_clear clear)

def lookalikeTransfer : RawTransaction :=
  { sampleTransfer with
    payload := .entryFunction ⟨⟨⟨⟨List.replicate 31 0xee ++ [1], by decide⟩, Utf8.encode "coin"⟩,
      Utf8.encode "transfer"⟩, .coinTransfer ⟨.aptosCoin, ⟨.framework, 1000⟩⟩⟩ }

theorem strict_refines_lenient_lookalikeTransfer :
    Request.decode { exactFramework := true } (Request.transaction lookalikeTransfer).encode =
        .ok (Request.transaction lookalikeTransfer).strictly ∧
      (Request.transaction lookalikeTransfer).strictly.isBlind = true ∧
      Request.decode {} (Request.transaction sampleTransfer).encode =
        .ok (.transaction sampleTransfer) ∧
      ∃ e, Request.decode {} Domain.rawTransaction.separator = .error e := by
  have lookalike := strict_refines_lenient Limits.requestLength
    (Request.transaction lookalikeTransfer).encode
  have sample := strict_refines_lenient Limits.requestLength
    (Request.transaction sampleTransfer).encode
  have cut := strict_refines_lenient Limits.requestLength Domain.rawTransaction.separator
  refine ⟨?_, by decide, ?_, ?_⟩
  · exact lookalike.1 (.transaction lookalikeTransfer) (by decide +kernel)
  · exact sample.2.2.2 (.transaction sampleTransfer) (by decide +kernel) (by decide)
  · exact cut.2.2.1 (.unexpectedEnd "sender") (by decide +kernel)

end ClearSign
