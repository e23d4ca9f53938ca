import UniversalRemote.Proofs.Session.Discipline
/-!
# The identity behind a failure

A session forgets the identity of its remote once a configuration has been stored. An operation that
fails does not get that far, so its session goes on with what it knew or has just learned, also where
the configuration on the remote is gone.
-/

namespace UniversalRemote.Session

open Operation
open Classic (Modifies invalidation)

variable {session : Session}

/-- Families other than the classic one are given the whole image at once, and the session changes
only behind that. -/
theorem ensures_storeConfig_image (data : List UInt8)
    (hfamily : session.remote.family ≠ .classic) :
    (storeConfig data).Ensures (fun _ _ => True) (fun _ after => after = session)
      (fun _ after _ => after.identity = none) session [] := by
  rw [storeConfig]
  split
  · exact ensures_bind (ensures_throw rfl)
  apply ensures_bind
  apply ensures_family
  have hinstall : ∀ past, (command (·.install (.ofConfig data)) (.during .updating)).Ensures
      (fun _ _ => True) (fun _ after => after = session) (fun _ after _ => after = session) session
      past := by
    intro past
    apply ensures_command
    · exact Program.ensures_of_forall (fun _ _ => trivial) (fun _ _ _ _ => rfl) _ past
    · exact fun _ => rfl
  simp only []
  apply ensures_bind
  apply (hinstall []).weaken
  intro later _ after _ _
  apply ensures_bind
  apply ensures_forget
  exact ensures_notify rfl

/-- Where a stored configuration has been changed, a classic session has no identity exactly if the
operation succeeded; a session of another family may also have had none to begin with. -/
theorem identity_storeConfig (device : Device σ) (state : σ) (session : Session)
    (data : List UInt8) :
    let run := ((storeConfig data).run.run session).run device state
    (session.remote.family = .classic →
      (∃ report ∈ run.trace.filterMap Step.written?, Modifies report) →
        (run.result.2.identity = none ↔ run.result.1 = .ok ())) ∧
    (session.remote.family ≠ .classic →
      (run.result.2.identity = none ↔ run.result.1 = .ok () ∨ session.identity = none)) := by
  intro run
  constructor
  · intro hfamily hmodified
    have hend := ((ensures_storeConfig data hfamily).run device state).1
    rw [List.nil_append] at hend
    cases hresult : run.result.1 with
    | ok _ =>
      rw [hresult] at hend
      exact ⟨fun _ => rfl, fun _ => hend.1⟩
    | error halt =>
      rw [hresult] at hend
      exact ⟨fun hnone => absurd hnone (hend hmodified), fun hok => nomatch hok⟩
  · intro hfamily
    have hend := ((ensures_storeConfig_image data hfamily).run device state).1
    rw [List.nil_append] at hend
    cases hresult : run.result.1 with
    | ok _ =>
      rw [hresult] at hend
      exact ⟨fun _ => .inl rfl, fun _ => hend⟩
    | error halt =>
      rw [hresult] at hend
      have hsame : run.result.2 = session := hend
      rw [hsame]
      exact ⟨.inr, fun h => h.resolve_left fun hok => nomatch hok⟩

/-- A remote that acknowledges the invalidation and then falls silent. -/
theorem identity_storeConfig_silence :
    let identity : Identity := {
      family := .classic, architectureCode := 3, flashManufacturer := 0xFF, flashDevice := 0x11 }
    let session : Session := ⟨{}, ⟨.classic, 2000, some ⟨1, 3⟩⟩, some identity⟩
    let run := ((storeConfig [0x69, 0x03]).run.run session).run Script.device
      { reads := [.report [0xF0, 0x02]] }
    run.result.2.identity ≠ none := by
  intro identity session run hnone
  have hmodified : ∃ report ∈ run.trace.filterMap Step.written?, Modifies report :=
    ⟨invalidation, by decide, .inl rfl⟩
  have hok : run.result.1 = .ok () :=
    ((identity_storeConfig Script.device { reads := [.report [0xF0, 0x02]] } session [0x69, 0x03]).1
      rfl hmodified).1 hnone
  exact nomatch hok

/-- Behind an invalidation, the session can go on with an identity that tells of a valid
configuration. -/
theorem identity_behind_invalidation :
    let identity : Identity := {
      family := .classic, architectureCode := 3, flashManufacturer := 0xFF, flashDevice := 0x11
      area := ⟨true, 2, 0x20000⟩ }
    let session : Session := ⟨{}, ⟨.classic, 2000, some ⟨1, 3⟩⟩, some identity⟩
    let run := ((storeConfig [0x69, 0x03]).run.run session).run Script.device
      { reads := [.report [0xF0, 0x02]] }
    invalidation ∈ run.trace.filterMap Step.written? ∧ run.result.2.identity = some identity := by
  intro identity session run
  exact ⟨by decide, rfl⟩

end UniversalRemote.Session
