import UniversalRemote.Proofs.Link.Leading
import UniversalRemote.Proofs.Parameter.Walk
import UniversalRemote.Z.Net
/-!
# Requests in messages

A message answers a request if it has a header and a parameter list, names the command of the request
and says that it was carried out (`CarriesOut`). A request goes on exactly with such an answer, and
with the parameters that it brings.
-/

namespace UniversalRemote

theorem ByteOrder.toNat_word32 (order : ByteOrder) {bytes : List UInt8} (h : 4 ≤ bytes.length) :
    (order.word32 bytes).toNat = order.value (bytes.take 4) := by
  have hroom := order.value_lt (bytes.take 4)
  rw [List.length_take, Nat.min_eq_left h] at hroom
  exact Nat.mod_eq_of_lt hroom

namespace Z

open Exchange

def parametersOf (message : Report) : List (List UInt8) :=
  ParameterList.payloads message (message.getD 3 0).toNat 4

/-- The first of them. -/
def brought (message : Report) : List UInt8 :=
  (parametersOf message).headD []

/-- A message says that a command was carried out. -/
structure CarriesOut (command : UInt8) (message : Report) : Prop where
  header : 4 ≤ message.length
  command : message.getD 1 0 = command
  /-- The top bit of the status does not count. -/
  status : message.getD 2 0 &&& 0x7F = statusOk
  parameters : ParameterList.walkEnd message (message.getD 3 0).toNat 4 ≤ message.length

variable {command : UInt8} {parameters : ParameterWriter} {timeout : Nat} {doing : String}
  {message : Report} {p : ParameterList}

theorem ofNetwork_eq_ok_iff (h : 4 ≤ message.length) : ParameterList.ofNetwork message = .ok p ↔
    ParameterList.walkEnd message (message.getD 3 0).toNat 4 ≤ message.length ∧
      p = ⟨.big, parametersOf message⟩ := by
  have hthree : 3 < message.length := h
  have hcount : message.getD 3 0 = message[3] := by simp [hthree]
  rw [parametersOf, hcount]
  exact ParameterList.parse_eq_ok_iff h .big

theorem ofMessage_of_le (h : 4 ≤ message.length) : Response.ofMessage message =
    (ParameterList.ofNetwork message).map
      (⟨message.getD 1 0, message.getD 2 0 &&& 0x7F, ·⟩) := by
  match message, h with
  | _ :: _ :: _ :: _ :: _, _ => rfl

theorem ofMessage_of_lt (h : message.length < 4) :
    Response.ofMessage message = .error (.shortPacket 4 message.length) := by
  match message, h with
  | [], _ | [_], _ | [_, _], _ | [_, _, _], _ => rfl

theorem ofMessage_eq_ok_iff : Response.ofMessage message = .ok ⟨command, statusOk, p⟩ ↔
    CarriesOut command message ∧ p = ⟨.big, parametersOf message⟩ := by
  by_cases hlong : 4 ≤ message.length
  · rw [ofMessage_of_le hlong]
    constructor
    · intro h
      cases hlist : ParameterList.ofNetwork message with
      | error cause =>
        rw [hlist] at h
        cases h
      | ok q =>
        rw [hlist] at h
        obtain ⟨hcommand, hstatus, rfl⟩ := Response.mk.inj (Except.ok.inj h)
        obtain ⟨hend, hp⟩ := (ofNetwork_eq_ok_iff hlong).1 hlist
        exact ⟨⟨hlong, hcommand, hstatus, hend⟩, hp⟩
    · rintro ⟨⟨-, hcommand, hstatus, hend⟩, hp⟩
      rw [(ofNetwork_eq_ok_iff hlong).2 ⟨hend, hp⟩, ← hcommand, ← hstatus]
      rfl
  · rw [ofMessage_of_lt (Nat.not_le.1 hlong)]
    exact ⟨nofun, fun h => absurd h.1.header hlong⟩

theorem bytes_parametersOf {chunk : List UInt8} :
    (⟨.big, parametersOf message⟩ : ParameterList).bytes 0 = .ok chunk ↔
      parametersOf message ≠ [] ∧ chunk = brought message := by
  unfold brought ParameterList.bytes
  cases parametersOf message with
  | nil => exact ⟨nofun, fun h => absurd rfl h.1⟩
  | cons first rest =>
    rw [eq_comm (a := chunk)]
    exact ⟨fun h => ⟨List.cons_ne_nil _ _, Except.ok.inj h⟩, fun h => congrArg _ h.2⟩

theorem dword_parametersOf {n : UInt32} :
    (⟨.big, parametersOf message⟩ : ParameterList).dword 0 = .ok n ↔
      4 ≤ (brought message).length ∧ n = ByteOrder.big.word32 (brought message) := by
  unfold brought ParameterList.dword ParameterList.sized ParameterList.bytes
  cases parametersOf message with
  | nil => exact ⟨nofun, fun h => absurd h.1 (by decide)⟩
  | cons first rest =>
    show (if first.length < 4 then .error _ else .ok first : Except _ _).map ByteOrder.big.word32 = _ ↔
      4 ≤ first.length ∧ _
    by_cases hshort : first.length < 4
    · rw [if_pos hshort]
      exact ⟨nofun, fun h => absurd hshort (Nat.not_lt.2 h.1)⟩
    · rw [if_neg hshort, eq_comm (a := n)]
      exact ⟨fun h => ⟨Nat.not_lt.1 hshort, Except.ok.inj h⟩, fun h => congrArg _ h.2⟩

/-! ## Requests -/

theorem demand_statusOk : demand command statusOk command doing = pure () := by
  unfold demand
  rw [if_neg (not_not.2 rfl), if_neg (not_not.2 rfl)]

section Ensures

variable {allowed : List Step → Report → Prop} {past : List Step}
  {post : List Step → ParameterList → Prop}
  (hallowed : allowed past ([0x20, command, 0x80] ++ parameters.finish))
include hallowed

/-- A request goes on only with an answer that says it was carried out. -/
theorem ensures_answer (hpost : ∀ message p,
    Response.ofMessage message = .ok ⟨command, statusOk, p⟩ →
      post (past ++ [.wrote ([0x20, command, 0x80] ++ parameters.finish) (.ok ())] ++
        [.read timeout (.ok message)]) p) :
    (netLink.ask command parameters timeout doing).Ensures allowed post past := by
  refine ensures_bind (ensures_bind (ensures_send hallowed (ensures_bind ?_)))
  refine ensures_receive fun message => ensures_check fun response hmessage => ?_
  refine ensures_bind (?_ : (demand _ _ _ _).Ensures _ _ _)
  rw [demand]
  by_cases hcommand : response.command ≠ command
  · rw [if_pos hcommand]
    exact ensures_throw _
  rw [if_neg hcommand]
  by_cases hstatus : response.status ≠ statusOk
  · rw [if_pos hstatus]
    exact ensures_throw _
  rw [if_neg hstatus]
  obtain ⟨answered, status, p⟩ := response
  obtain rfl : answered = command := not_not.1 hcommand
  obtain rfl : status = statusOk := not_not.1 hstatus
  exact ensures_pure (ensures_pure (hpost message p hmessage))

theorem ensures_message (hpost : ∀ message, CarriesOut command message →
    post (past ++ [.wrote ([0x20, command, 0x80] ++ parameters.finish) (.ok ())] ++
      [.read timeout (.ok message)]) ⟨.big, parametersOf message⟩) :
    (netLink.ask command parameters timeout doing).Ensures allowed post past := by
  refine ensures_answer hallowed fun message p hmessage => ?_
  obtain ⟨hcarries, rfl⟩ := ofMessage_eq_ok_iff.1 hmessage
  exact hpost message hcarries

end Ensures

variable {device : Device σ} {s t u : σ}

/-- A request that is carried out goes on with what the answer brings. -/
theorem leads_ask
    (hwrite : device.write ([0x20, command, 0x80] ++ parameters.finish) s = (.ok (), t))
    (hread : device.read timeout t = (.ok message, u))
    (hmessage : Response.ofMessage message = .ok ⟨command, statusOk, p⟩) :
    (netLink.ask command parameters timeout doing).Leads device s
      [[0x20, command, 0x80] ++ parameters.finish] (.ok p) u := by
  have hrequest : (netLink.request command parameters timeout).Leads device s
      [[0x20, command, 0x80] ++ parameters.finish] (.ok ⟨command, statusOk, p⟩) u := by
    refine leads_bind_cons (leads_send hwrite) (leads_bind_silent (leads_receive hread) ?_)
    rw [hmessage]
    exact leads_pure _
  refine leads_bind_cons hrequest ?_
  dsimp only
  rw [demand_statusOk]
  exact leads_pure p

end Z

end UniversalRemote
