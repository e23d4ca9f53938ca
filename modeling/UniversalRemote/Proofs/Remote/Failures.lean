import UniversalRemote.Link.Script
import UniversalRemote.Proofs.FileTransfer.Strictness
import UniversalRemote.Proofs.Z.Strictness
import UniversalRemote.Remote
/-!
# No failure is lost

All operations of all remotes, with their arguments, and what a run of any of them owes for how it
ended. An operation that has an answer has met no failure of the link; otherwise it reports the first
one, and neither what it cleans up nor how that goes changes its report. A Z remote may fall silent
once its stream is being closed, and may leave the link when it is restarted.
-/

namespace UniversalRemote

namespace Remote

open Exchange

/-- Asks the remote for its identity, without what the host remembers of it. -/
def describe (r : Remote) : Exchange RemoteError Identity :=
  ExceptT.mk (r.identify.bind fun (answer, _) => .done answer)

/-- What the host remembers of an identity has nothing to do with how it is asked for. -/
theorem describe_eq (r : Remote) : r.describe =
    match r.family with
    | .classic => Classic.announce >>= fun identity => (r.classic.learned identity).describe identity
    | .zHid => Z.identify Z.hidLink
    | .zNet => Z.identify Z.netLink
    | .mh => FileTransfer.identify := by
  have hplain : ∀ x : Exchange RemoteError Identity,
      ExceptT.mk ((x.run.bind fun answer => Program.done (answer, r)).bind fun (answer, _) =>
        .done answer) = x := by
    intro x
    rw [Program.bind_assoc]
    exact Program.bind_done _
  unfold describe identify
  cases r.family with
  | classic => exact (Program.bind_assoc _ _ _).trans r.classic.identify_fst
  | zHid => exact hplain _
  | zNet => exact hplain _
  | mh => exact hplain _

/-- What closes the link to a remote: the end of a stream. -/
def farewell (r : Remote) : Report → Bool :=
  if r.family = .zHid then Z.closes else fun _ => false

end Remote

/-- An operation of a remote, with its arguments. State memory is a matter of classic remotes. -/
inductive Call : Family → Type → Type where
  | identify : Call family Identity
  | restart (kind : Restart) : Call family Unit
  | readFlash (address : UInt32) (length : Nat) : Call family (List UInt8)
  | compareFlash (address : UInt32) (expected : List UInt8) : Call family Unit
  | writeFlash (address : UInt32) (data : List UInt8) : Call family Unit
  | eraseFlash (address length : UInt32) (layout : SectorLayout) : Call family Unit
  | invalidateConfig : Call family Unit
  | readClock : Call family DateTime
  | setClock (t : DateTime) : Call family Unit
  | learn : Call family Signal
  | fetchFile (name : String) : Call family (List UInt8)
  | storeFile (name : String) (data : List UInt8) : Call family Unit
  | fetchRegion (region : Region) : Call family (List UInt8)
  | install (image : Image) : Call family Unit
  | readBytes (space address : UInt8) (count : Nat) : Call .classic (List UInt8)
  | readWords (space : UInt8) (address : UInt16) (count : Nat) : Call .classic (List UInt16)
  | writeBytes (space address : UInt8) (values : List UInt8) : Call .classic Unit
  | writeWords (space : UInt8) (address : UInt16) (values : List UInt16) : Call .classic Unit

namespace Call

open Exchange

variable {family : Family} {r : Remote} {wide : Prop}

def perform (r : Remote) : Call family α → Exchange RemoteError α
  | identify => r.describe
  | restart kind => r.restart kind
  | readFlash address length => r.readFlash address length
  | compareFlash address expected => r.compareFlash address expected
  | writeFlash address data => r.writeFlash address data
  | eraseFlash address length layout => r.eraseFlash address length layout
  | invalidateConfig => r.invalidateConfig
  | readClock => r.readClock
  | setClock t => r.setClock t
  | learn => r.learn
  | fetchFile name => r.fetchFile name
  | storeFile name data => r.storeFile name data
  | fetchRegion region => r.fetchRegion region
  | install image => r.install image
  | readBytes space address count => Classic.readBytes space address count
  | readWords space address count => Classic.readWords space address count
  | writeBytes space address values => Classic.writeBytes space address values
  | writeWords space address values => Classic.writeWords space address values

/-- The restart of a Z remote, which may leave the link before it has answered. -/
def RestartsZ : Call family α → Prop
  | restart _ => family = .zHid ∨ family = .zNet
  | _ => False

/-- Arguments with which no machine word is left: flash has 32-bit addresses, and clocks are kept in
bytes. The length of a configuration that is kept as a file is not an argument. -/
def Bounded (r : Remote) : Call family α → Prop
  | identify => family ≠ .mh
  | readFlash address length => family = .classic → address.toNat + length ≤ 0x100000000
  | compareFlash address expected =>
    family = .classic → address.toNat + expected.length ≤ 0x100000000
  | writeFlash address data => family = .classic → address.toNat + data.length ≤ 0x100000000
  | eraseFlash _ _ layout => family = .classic → layout.Within
  | readClock => family = .classic →
    ∀ geometry, r.geometry = some geometry → geometry.architecture < Classic.wordClock
  | _ => True

/-! ## Every operation is honest -/

section Families

variable {x : Exchange RemoteError α}

theorem honest_of_candid (hfamily : r.family = family) (hhid : family ≠ .zHid)
    (h : x.Candid wide) : x.Honest r.farewell wide false := by
  rw [Remote.farewell, if_neg (hfamily ▸ hhid)]
  exact h

theorem honest_of_direct (hfamily : r.family = family) (hhid : family ≠ .zHid)
    (h : x.Direct wide) : x.Honest r.farewell wide false :=
  honest_of_candid hfamily hhid h.candid

theorem honest_of_closes (hfamily : r.family = .zHid) (h : x.Honest Z.closes wide false) :
    x.Honest r.farewell wide false := by
  rw [Remote.farewell, if_pos hfamily]
  exact h

theorem honest_of_steady (hfamily : r.family = .zHid) (h : Z.Steady wide x) :
    x.Honest r.farewell wide false :=
  honest_of_closes hfamily (h.honest fun _ hreport => hreport)

theorem honest_notOffered (capability : Capability) :
    (r.notOffered capability : Exchange RemoteError α).Honest r.farewell wide false :=
  honest_throw trivial

end Families

theorem strict_netLink : Z.StrictLink (fun _ => True) wide Z.netLink :=
  Z.strict_netLink fun _ => trivial

theorem honest_describe (hmh : ¬ wide → r.family ≠ .mh) :
    r.describe.Honest r.farewell wide false := by
  rw [Remote.describe_eq]
  split
  · refine honest_of_direct ‹_› (by decide) ?_
    exact Classic.strict_announce.bind fun _ => Classic.strict_describe _ _
  · exact honest_of_steady ‹_› (Z.strict_identify Z.strict_hidLink)
  · exact honest_of_direct ‹_› (by decide) (Z.strict_identify strict_netLink)
  · rename_i hfamily
    have hwide : wide := Classical.not_not.1 fun hwide => hmh hwide hfamily
    exact honest_of_candid hfamily (by decide) (FileTransfer.candid_identify hwide)

theorem honest_restart (kind : Restart) (hz : ¬ (r.family = .zHid ∨ r.family = .zNet)) :
    (r.restart kind).Honest r.farewell wide false := by
  unfold Remote.restart
  split
  · exact honest_of_direct ‹_› (by decide) (Classic.strict_restart kind)
  · exact (hz (.inl ‹_›)).elim
  · exact (hz (.inr ‹_›)).elim
  · exact honest_of_direct ‹_› (by decide) FileTransfer.strict_restart

theorem honest_readClock (hclock : ¬ wide → r.family = .classic → ∀ geometry,
    r.geometry = some geometry → geometry.architecture < Classic.wordClock) :
    r.readClock.Honest r.farewell wide false := by
  unfold Remote.readClock
  split
  · rename_i hclassic
    exact honest_of_direct hclassic (by decide)
      (Classic.strict_readClock fun hwide => hclock hwide hclassic)
  · exact honest_of_steady ‹_› (Z.strict_readClock Z.strict_hidLink)
  · exact honest_of_direct ‹_› (by decide) (Z.strict_readClock strict_netLink)
  · exact honest_notOffered _

theorem honest_setClock (t : DateTime) : (r.setClock t).Honest r.farewell wide false := by
  unfold Remote.setClock
  split
  · exact honest_of_direct ‹_› (by decide) (Classic.strict_setClock _ t)
  · exact honest_of_steady ‹_› (Z.strict_setClock Z.strict_hidLink t)
  · exact honest_of_direct ‹_› (by decide) (Z.strict_setClock strict_netLink t)
  · exact honest_notOffered _

theorem honest_learn : r.learn.Honest r.farewell wide false := by
  unfold Remote.learn
  split
  · exact honest_of_candid ‹_› (by decide) (Classic.candid_learn _)
  · exact honest_of_candid ‹_› (by decide) (FileTransfer.candid_learn _)
  · exact honest_notOffered _

theorem honest_fetchRegion (region : Region) :
    (r.fetchRegion region).Honest r.farewell wide false := by
  unfold Remote.fetchRegion
  split
  · exact honest_of_closes ‹_› (Z.honest_fetchRegion _ region)
  · exact honest_of_direct ‹_› (by decide) (Z.strict_fetchNetRegion (fun _ => trivial) region)
  · exact honest_notOffered _

theorem honest_install (image : Image) : (r.install image).Honest r.farewell wide false := by
  unfold Remote.install
  split
  · exact honest_of_closes ‹_› (Z.honest_installHid image)
  · exact honest_of_direct ‹_› (by decide) (Z.strict_installNet (fun _ => trivial) image)
  · exact honest_of_candid ‹_› (by decide) (FileTransfer.candid_install image)
  · exact honest_notOffered _

section Flash

variable {address length : UInt32}

theorem honest_readFlash {count : Nat}
    (h : ¬ wide → r.family = .classic → address.toNat + count ≤ 0x100000000) :
    (r.readFlash address count).Honest r.farewell wide false := by
  unfold Remote.readFlash
  split
  · rename_i hclassic
    exact honest_of_direct hclassic (by decide) (Classic.strict_read fun hwide => h hwide hclassic)
  · exact honest_notOffered _

theorem honest_compareFlash {expected : List UInt8}
    (h : ¬ wide → r.family = .classic → address.toNat + expected.length ≤ 0x100000000) :
    (r.compareFlash address expected).Honest r.farewell wide false := by
  unfold Remote.compareFlash
  split
  · rename_i hclassic
    exact honest_of_direct hclassic (by decide) (Classic.strict_verify fun hwide => h hwide hclassic)
  · exact honest_notOffered _

theorem honest_writeFlash {data : List UInt8}
    (h : ¬ wide → r.family = .classic → address.toNat + data.length ≤ 0x100000000) :
    (r.writeFlash address data).Honest r.farewell wide false := by
  unfold Remote.writeFlash
  split
  · rename_i hclassic
    exact honest_of_direct hclassic (by decide) (Classic.strict_write fun hwide => h hwide hclassic)
  · exact honest_notOffered _

theorem honest_eraseFlash {layout : SectorLayout}
    (h : ¬ wide → r.family = .classic → layout.Within) :
    (r.eraseFlash address length layout).Honest r.farewell wide false := by
  unfold Remote.eraseFlash
  split
  · rename_i hclassic
    exact honest_of_direct hclassic (by decide)
      (Classic.strict_eraseFlash fun hwide => h hwide hclassic)
  · exact honest_notOffered _

theorem honest_invalidateConfig : r.invalidateConfig.Honest r.farewell wide false := by
  unfold Remote.invalidateConfig
  split
  · exact honest_of_direct ‹_› (by decide) (Classic.strict_writeSpace _ _ _)
  · exact honest_notOffered _

end Flash

theorem honest_fetchFile (name : String) : (r.fetchFile name).Honest r.farewell wide false := by
  unfold Remote.fetchFile
  split
  · exact honest_of_candid ‹_› (by decide) (FileTransfer.candid_fetchFile name)
  · exact honest_notOffered _

theorem honest_storeFile (name : String) (data : List UInt8) :
    (r.storeFile name data).Honest r.farewell wide false := by
  unfold Remote.storeFile
  split
  · exact honest_of_candid ‹_› (by decide) (FileTransfer.candid_store name data)
  · exact honest_notOffered _

/-- Every operation accounts for its failures. It leaves a machine word only where its arguments have
no bounds. -/
theorem honest_perform (hfamily : r.family = family) (call : Call family α)
    (hrestart : ¬ call.RestartsZ) (hbounded : ¬ wide → call.Bounded r) :
    (call.perform r).Honest r.farewell wide false := by
  cases call with
  | identify => exact honest_describe fun hwide => hfamily ▸ hbounded hwide
  | restart kind => exact honest_restart kind (hfamily ▸ hrestart)
  | readFlash address length => exact honest_readFlash fun hwide => hfamily ▸ hbounded hwide
  | compareFlash address expected => exact honest_compareFlash fun hwide => hfamily ▸ hbounded hwide
  | writeFlash address data => exact honest_writeFlash fun hwide => hfamily ▸ hbounded hwide
  | eraseFlash address length layout =>
    exact honest_eraseFlash fun hwide => hfamily ▸ hbounded hwide
  | invalidateConfig => exact honest_invalidateConfig
  | readClock => exact honest_readClock fun hwide => hfamily ▸ hbounded hwide
  | setClock t => exact honest_setClock t
  | learn => exact honest_learn
  | fetchFile name => exact honest_fetchFile name
  | storeFile name data => exact honest_storeFile name data
  | fetchRegion region => exact honest_fetchRegion region
  | install image => exact honest_install image
  | readBytes space address count =>
    exact honest_of_direct hfamily (by decide) (Classic.strict_readBytes space count address)
  | readWords space address count =>
    exact honest_of_direct hfamily (by decide) (Classic.strict_readWords space count address)
  | writeBytes space address values =>
    exact honest_of_direct hfamily (by decide) (Classic.strict_writeBytes space values address)
  | writeWords space address values =>
    exact honest_of_direct hfamily (by decide) (Classic.strict_writeWords space values address)

end Call

end UniversalRemote
