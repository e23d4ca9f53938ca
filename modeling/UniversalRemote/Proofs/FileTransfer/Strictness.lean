import UniversalRemote.Proofs.Classic.Strictness
import UniversalRemote.Proofs.FileTransfer.Release
import UniversalRemote.Proofs.Link.Faults
/-!
# File transfers end at the first failure

All that happens under a token is strict, and so are the exchanges that open files. A call that holds
a token accounts for its failures: those of the transfer count before those of its release.
-/

namespace UniversalRemote

open Exchange

variable {wide : Prop}

theorem Signal.strict_capture (code : UInt8) (patience : Nat) :
    (Signal.capture code patience).Direct wide :=
  strict_listen code patience {}

/-- A capture of a classic remote is stopped even where it fails, which is what counts then. -/
theorem Classic.candid_learn (c : Classic) : c.learn.Candid wide := by
  refine (direct_send [0x70]).candid.bind fun _ => ?_
  refine (Signal.strict_capture _ _).candid_attempt (fun signal => ?_) fun cause => ?_
  · exact (direct_send [0x80]).candid_attempt (fun _ => honest_pure _) fun _ => rfl
  · exact closing_attempt (strict_send (.inl rfl)) fun _ => rfl

namespace FileTransfer

theorem strict_converse {writes : Report → Prop} {own : Halt RemoteError → Prop} {report : Report}
    (h : writes report) (timeout : Nat) : (converse report timeout).Strict writes own :=
  (strict_send h).bind fun _ => strict_receive timeout

theorem strict_release (number token : UInt8) :
    (release number token).Strict IsCleanup (fun _ => False) :=
  (strict_converse (.inr (.inr ⟨number, token, rfl⟩)) _).bind fun _ => strict_pure _

theorem direct_release (number token : UInt8) : (release number token).Direct wide :=
  (strict_converse trivial _).bind fun _ => strict_pure _

theorem strict_openFile (request : Report) (timeout : Nat) :
    (openFile request timeout).Direct wide :=
  (strict_converse trivial timeout).bind fun _ => strict_check _

theorem strict_admitName (name : String) (limit : Nat) : (admitName name limit).Direct wide := by
  unfold admitName
  split
  · exact strict_refuse _
  · exact strict_pure _

theorem strict_greet (times : Nat) : (greet times).Direct wide := by
  induction times with
  | zero => exact strict_pure _
  | succ times ih => exact (strict_send trivial).bind fun _ => ih

theorem strict_restart : restart.Direct wide :=
  (strict_converse trivial _).bind fun _ => strict_pure _

theorem strict_openingStore (name : String) (length : Nat) :
    (openingStore name length).Direct wide :=
  (strict_admitName name 50).bind fun _ => strict_openFile _ _

theorem strict_openingInstall (image : Image) : (openingInstall image).Direct wide := by
  unfold openingInstall
  refine strict_unless (strict_throw trivial) ?_
  refine (strict_progress _ _ _).bind fun _ => (strict_converse trivial _).bind fun _ => ?_
  refine (strict_progress _ _ _).bind fun _ => (strict_openFile _ _).bind fun _ => ?_
  exact (strict_progress _ _ _).bind fun _ => strict_pure _

/-! ## Under a token -/

namespace Numbered

def Direct (wide : Prop) (x : Numbered α) : Prop :=
  ∀ n, (x.run.run n).Strict (fun _ => True)
    (fun cause answer => answer.1 = .error (.failed (.link cause)))
    fun answer => ∀ halt, answer.1 = .error halt → halt.Own wide

theorem direct_pure (a : α) : (pure a : Numbered α).Direct wide :=
  fun _ _ h => nomatch h

theorem direct_refuse (cause : ProtocolError) : (refuse cause : Numbered α).Direct wide := by
  intro n halt hhalt
  cases hhalt
  exact trivial

theorem direct_next : next.Direct wide :=
  fun _ _ h => nomatch h

theorem direct_lift {x : Exchange RemoteError α} (h : x.Direct wide) :
    (liftM x : Numbered α).Direct wide := by
  intro n
  refine Program.Strict.bind h (fun cause result hresult => ⟨_, rfl, hresult⟩) ?_
  exact fun result hresult => hresult

theorem Direct.bind {x : Numbered α} {f : α → Numbered β} (h : x.Direct wide)
    (hf : ∀ a, (f a).Direct wide) : (x >>= f).Direct wide := by
  intro n
  refine Program.Strict.bind (h n) (fun cause answer hanswer => ?_) fun answer hanswer => ?_
  · obtain ⟨result, rest⟩ := answer
    obtain rfl : result = .error (.failed (.link cause)) := hanswer
    exact ⟨_, rfl, rfl⟩
  · obtain ⟨result, rest⟩ := answer
    cases result with
    | ok a => exact hf a rest
    | error halt =>
      intro other hother
      cases hother
      exact hanswer halt rfl

theorem direct_progress (stage : Stage) (current total : Nat) :
    (progress stage current total).Direct wide :=
  direct_lift (strict_progress _ _ _)

theorem direct_converse (report : Report) (timeout : Nat) :
    (liftM (converse report timeout) : Numbered Report).Direct wide :=
  direct_lift (strict_converse trivial timeout)

/-- A failure of what is done under a token counts before one of the release. -/
theorem Direct.candid_holding {body : Numbered α} (h : body.Direct wide) (token : UInt8)
    (n : Sequence) : (holding token body n).Candid wide := by
  have hfailed : ∀ (cause : RemoteError) (rest : Sequence),
      (do
        let closed ← Exchange.attempt (release rest.current token)
        Exchange.first (.error cause) closed : Exchange RemoteError α).Ending (.failed cause) :=
    fun cause rest => closing_attempt (strict_release _ _) fun _ => rfl
  have hdone : ∀ (a : α) (rest : Sequence),
      (do
        let closed ← Exchange.attempt (release rest.current token)
        Exchange.first (.ok a) closed : Exchange RemoteError α).Candid wide := by
    intro a rest
    exact (direct_release _ token).candid_attempt (fun _ => honest_pure _) fun _ => rfl
  change (((body.run.run n).bind _).bind _).Honest _ wide false
  rw [Program.bind_assoc]
  refine Program.Strict.honest_bind (h n) (fun _ _ => rfl) (fun cause answer hanswer => ?_)
    fun answer hanswer => ?_
  · obtain ⟨result, rest⟩ := answer
    obtain rfl : result = .error (.failed (.link cause)) := hanswer
    exact hfailed (.link cause) rest
  · match answer with
    | (.ok a, rest) => exact hdone a rest
    | (.error (.failed cause), rest) => exact (hfailed cause rest).honest (hanswer _ rfl)
    | (.error .overflow, rest) => exact honest_throw (hanswer _ rfl)
    | (.error .stalled, rest) => exact honest_throw (hanswer _ rfl)

end Numbered

open Numbered

theorem direct_receiveData (token : UInt8) (length : Nat) (stage : Stage) (left : Nat) :
    ∀ (expected : Option Sequence) (unacked received : Nat) (past : List (List UInt8)),
      (receiveData token length stage left expected unacked received past).Direct wide := by
  induction left with
  | zero =>
    intro expected unacked received past
    rw [receiveData]
    split
    · exact (direct_refuse _).bind fun _ => direct_pure _
    · exact direct_pure _
  | succ left ih =>
    intro expected unacked received past
    rw [receiveData_succ]
    refine (direct_lift (strict_receive _)).bind fun packet => ?_
    refine (direct_lift (strict_check _)).bind fun following => (direct_progress _ _ _).bind ?_
    intro _
    split
    · exact direct_next.bind fun _ => (direct_converse _ _).bind fun _ => ih _ _ _ _
    · exact ih _ _ _ _

theorem direct_receiveFile (token : UInt8) (length : Nat) (stage : Stage) :
    (receiveFile token length stage).Direct wide :=
  direct_next.bind fun _ => (direct_converse _ _).bind fun _ =>
    (direct_receiveData _ _ _ _ _ _ _ _).bind fun _ => direct_pure _

theorem direct_sendData (token : UInt8) (length : Nat) (stage : Stage)
    (pieces : List (List UInt8)) :
    ∀ unacked sent : Nat, (sendData token length stage pieces unacked sent).Direct wide := by
  induction pieces with
  | nil => exact fun _ _ => direct_pure _
  | cons chunk rest ih =>
    intro unacked sent
    refine direct_next.bind fun number => (direct_lift (direct_send _)).bind fun _ => ?_
    dsimp only
    split
    · refine (direct_lift (strict_receive _)).bind fun _ => direct_next.bind fun number => ?_
      exact (direct_lift (direct_send _)).bind fun _ =>
        (direct_progress _ _ _).bind fun _ => ih _ _
    · exact (direct_progress _ _ _).bind fun _ => ih _ _

theorem direct_storing (token : UInt8) (data : List UInt8) : (storing token data).Direct wide :=
  direct_next.bind fun _ => (direct_lift (direct_send _)).bind fun _ =>
    (direct_sendData _ _ _ _ _ _).bind fun _ => (direct_converse _ _).bind fun _ => direct_pure _

theorem direct_sendImage (token : UInt8) (data : List UInt8) (checksum : ChecksumRecord) :
    (sendImage token data checksum).Direct wide := by
  refine (direct_lift (direct_send _)).bind fun _ => (direct_progress _ _ _).bind fun _ => ?_
  refine (direct_sendData _ _ _ _ _ _).bind fun _ => (direct_converse _ _).bind fun _ => ?_
  refine (direct_progress _ _ _).bind fun _ => direct_next.bind fun _ => ?_
  refine (direct_converse _ _).bind fun _ => (direct_progress _ _ _).bind fun _ => ?_
  exact direct_next.bind fun _ => (direct_converse _ _).bind fun _ => direct_progress _ _ _

/-! ## Calls -/

theorem candid_fetch (name : String) (start : UInt8) (stage : Stage) :
    (fetch name start stage).Candid wide := by
  have hadmit : (admitName name 55).Direct wide := strict_admitName name 55
  have hopen : (openFile (openToRead (Sequence.sixBit start).current 0x02 name) fileWait).Direct
      wide := strict_openFile _ _
  exact hadmit.candid.bind fun _ => hopen.candid.bind fun (token, length) =>
    (direct_receiveFile token length stage).candid_holding _ _

theorem candid_fetchFile (name : String) : (fetchFile name).Candid wide :=
  (candid_fetch _ _ _).bind fun _ => honest_pure _

theorem candid_store (name : String) (data : List UInt8) : (store name data).Candid wide := by
  rw [store_eq]
  refine (strict_openingStore name data.length).candid.bind fun (token, _) => ?_
  exact ((direct_storing token data).candid_holding _ _).bind fun _ => honest_pure _

theorem candid_install (image : Image) : (install image).Candid wide := by
  rw [install_eq]
  refine (strict_openingInstall image).candid.bind fun (token, _) => ?_
  refine ((direct_sendImage token image.data (checksumOf image)).candid_holding _ _).bind fun _ => ?_
  exact Direct.candid (strict_progress _ _ _)

theorem candid_configLength : configLength.Candid wide := by
  refine (strict_openFile _ _).candid_attempt (fun told => ?_) fun cause => ?_
  · exact (direct_release _ _).candid_attempt (fun _ => honest_pure _) fun _ => rfl
  · exact closing_attempt (strict_release _ _) fun _ => rfl

/-- A capture of a remote that keeps files is stopped and its token given back, and where several of
the three fail, the first failure counts. -/
theorem candid_learn (patience : Nat) : (learn patience).Candid wide := by
  have hstop : IsCleanup [0xFF, 0x06, 0x02, 0x02, 0x01, captureToken, 0x01, 0x06] :=
    .inr (.inl ⟨captureToken, rfl⟩)
  refine Candid.bind (Direct.candid (strict_converse trivial _)) fun _ => ?_
  refine Candid.bind (Direct.candid (strict_converse trivial _)) fun _ => ?_
  refine (Signal.strict_capture 0x90 patience).candid_attempt (fun signal => ?_) fun cause => ?_
  · refine Direct.candid_attempt (strict_converse trivial _) (fun _ => ?_) fun cause => ?_
    · exact (direct_release _ _).candid_attempt (fun _ => honest_pure _) fun _ => rfl
    · exact closing_attempt (strict_release _ _) fun _ => rfl
  · exact closing_attempt (strict_converse hstop _) fun _ =>
      closing_attempt (strict_release _ _) fun _ => rfl

/-- The length of the stored configuration may leave its machine word. -/
theorem candid_identify (hwide : wide) : identify.Candid wide := by
  refine (strict_greet 5).candid.bind fun _ => ?_
  refine Candid.bind (Direct.candid (strict_converse trivial _)) fun _ => ?_
  refine Candid.bind (Direct.candid (strict_converse trivial _)) fun _ => ?_
  refine (candid_fetch _ _ _).bind fun contents => ?_
  refine Candid.bind (Direct.candid (strict_progress _ _ _)) fun _ => ?_
  refine candid_configLength.bind fun length => ?_
  refine Candid.bind (Direct.candid (strict_ofChecked fun h => absurd hwide h)) fun used => ?_
  exact Candid.bind (Direct.candid (strict_progress _ _ _)) fun _ => honest_pure _

end FileTransfer

end UniversalRemote
