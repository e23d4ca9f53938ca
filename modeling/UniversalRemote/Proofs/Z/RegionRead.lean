import UniversalRemote.Proofs.Z.Marker
import UniversalRemote.Proofs.Z.Simulation
/-!
# Reading a region from a simulated remote

What the host makes of a region does not depend on how the remote cuts it into answers
(`fetchRegion_simulated`): it has the user configuration down to the end of the first end marker,
and asks for nothing behind the answer in which that marker ends; of other regions it has all there
is.

The answers that complete no marker are taken one after another (`ending_receiveRegion_append`). The
loop then ends with the next one, which completes the marker or says that there is no more.
-/

namespace UniversalRemote.Z

open Exchange

/-- What the host carries on behind some bytes. -/
def watch (marked : Bool) (bytes : List UInt8) : Option Carry :=
  if marked then some (Carry.tail bytes) else none

/-- No marker that is looked for is complete. -/
def Unfinished (marked : Bool) (bytes : List UInt8) : Prop :=
  marked → ¬ endMarker <:+: bytes

theorem demand_carriedOut (flags command : UInt8) (body : List UInt8) (doing : String) :
    Packet.demand ⟨flags, some command, statusOk, body⟩ command doing = pure body := by
  simp [Packet.demand]

variable {marked : Bool} {bytes chunk : List UInt8}

theorem Unfinished.left (h : Unfinished marked (bytes ++ chunk)) : Unfinished marked bytes :=
  fun hmarked hmarker => h hmarked (hmarker.trans (List.prefix_append bytes chunk).isInfix)

theorem next_watch : (watch marked bytes).map (·.next chunk) = watch marked (bytes ++ chunk) := by
  cases marked with
  | false => rfl
  | true => exact congrArg some Carry.next_tail

theorem markerStop_watch_none (h : Unfinished marked (bytes ++ chunk)) :
    (watch marked bytes).bind (·.markerStop chunk) = none := by
  cases marked with
  | false => rfl
  | true =>
    have hstop := Carry.markerStop_tail (h.left rfl) chunk
    rwa [markerStop_eq_none_iff.2 (h rfl)] at hstop

theorem markerStop_watch_some {place : Nat} (h : ¬ endMarker <:+: bytes)
    (hfirst : FirstMarkerEnds (bytes ++ chunk) place) :
    (watch true bytes).bind (·.markerStop chunk) = some (place - bytes.length) := by
  have hstop := Carry.markerStop_tail h chunk
  rwa [markerStop_eq_some_iff.2 hfirst] at hstop

namespace Simulated

variable {r : Simulated} {stream : Stream} {s : State} {bodies : List (List UInt8)} {asked : Nat}

/-! ## One answer -/

theorem ending_receiveRegion_data {body : List UInt8}
    (hserving : Serving stream s (body :: bodies) asked) (hbody : body.length ≤ answerLimit)
    (hunfinished : Unfinished marked (bytes ++ body))
    (hlimit : (bytes ++ body).length ≤ regionLimit) (patience : Nat) (past : List (List UInt8)) :
    ∃ after t, (receiveRegion (patience + 1) stream (watch marked bytes) bytes.length past).ending
          r.device s =
        (receiveRegion patience after (watch marked (bytes ++ body)) (bytes ++ body).length
          (body :: past)).ending r.device t ∧
      Serving after t bodies (asked + 1) := by
  obtain ⟨flags, after, t, hdata, hafter⟩ := ending_data (r := r) hserving hbody
  refine ⟨after, t, ?_, hafter⟩
  rw [receiveRegion, ending_bind_ok hdata]
  simp only
  rw [if_neg (by simp), demand_carriedOut, pure_bind]
  simp only [markerStop_watch_none hunfinished, ← List.length_append]
  rw [if_neg (Nat.not_lt.2 hlimit), ending_bind_ok (ending_progress _ _ _), next_watch]

/-- The answer that completes the marker ends the loop. -/
theorem ending_receiveRegion_marker {body : List UInt8} {place : Nat}
    (hserving : Serving stream s (body :: bodies) asked) (hbody : body.length ≤ answerLimit)
    (hunfinished : ¬ endMarker <:+: bytes) (hfirst : FirstMarkerEnds (bytes ++ body) place)
    (patience : Nat) (past : List (List UInt8)) :
    ∃ after t, (receiveRegion (patience + 1) stream (watch true bytes) bytes.length past).ending
          r.device s = (.ok (body.take (place - bytes.length) :: past, after), t) ∧
      Serving after t bodies (asked + 1) := by
  obtain ⟨flags, after, t, hdata, hafter⟩ := ending_data (r := r) hserving hbody
  refine ⟨after, t, ?_, hafter⟩
  rw [receiveRegion, ending_bind_ok hdata]
  simp only
  rw [if_neg (by simp), demand_carriedOut, pure_bind]
  simp only [markerStop_watch_some hunfinished hfirst]
  rfl

/-- Where no marker is looked for, the farewell ends the loop. -/
theorem ending_receiveRegion_farewell (hserving : Serving stream s [] asked) (received : Nat)
    (patience : Nat) (past : List (List UInt8)) :
    ∃ after t, (receiveRegion (patience + 1) stream none received past).ending r.device s =
        (.ok (past, after), t) ∧
      Serving after t [] (asked + 1) := by
  obtain ⟨flags, after, t, hfarewell, hafter⟩ := ending_farewell (r := r) hserving
  refine ⟨after, t, ?_, hafter⟩
  rw [receiveRegion, ending_bind_ok hfarewell]
  rfl

/-- A farewell before the marker is complete is a failure. -/
theorem ending_receiveRegion_unmarked (hserving : Serving stream s [] asked) (carry : Carry)
    (received patience : Nat) (past : List (List UInt8)) :
    ∃ t, (receiveRegion (patience + 1) stream (some carry) received past).ending r.device s =
        (.error (.failed (.protocol (.endMarkerNotFound received))), t) ∧ t.asked = asked + 1 := by
  obtain ⟨flags, after, t, hfarewell, hafter⟩ := ending_farewell (r := r) hserving
  refine ⟨t, ?_, hafter.asked⟩
  rw [receiveRegion, ending_bind_ok hfarewell]
  rfl

/-! ## All answers -/

/-- The loop over answers that complete no marker. -/
theorem ending_receiveRegion_append (bytes : List UInt8) {before : List (List UInt8)}
    (rest : List (List UInt8))
    (hserving : Serving stream s (before ++ rest) asked)
    (hfits : ∀ body ∈ before, body.length ≤ answerLimit)
    (hunfinished : Unfinished marked (bytes ++ before.flatten))
    (hlimit : (bytes ++ before.flatten).length ≤ regionLimit) (patience : Nat)
    (past : List (List UInt8)) :
    ∃ after t, (receiveRegion (patience + before.length) stream (watch marked bytes) bytes.length
          past).ending r.device s =
        (receiveRegion patience after (watch marked (bytes ++ before.flatten))
          (bytes ++ before.flatten).length (before.reverse ++ past)).ending r.device t ∧
      Serving after t rest (asked + before.length) := by
  induction before generalizing stream s asked bytes past with
  | nil => exact ⟨stream, s, by simp, hserving⟩
  | cons body before ih =>
    have hflatten : bytes ++ (body :: before).flatten = bytes ++ body ++ before.flatten := by
      rw [List.flatten_cons, List.append_assoc]
    rw [hflatten] at hunfinished hlimit ⊢
    obtain ⟨after, t, hdata, hafter⟩ := ending_receiveRegion_data (r := r) hserving
      (hfits body (by simp)) hunfinished.left
      (Nat.le_trans (List.prefix_append _ _).length_le hlimit) (patience + before.length) past
    obtain ⟨last, u, hrest, hlast⟩ := ih (bytes ++ body) hafter
      (fun b hb => hfits b (by simp [hb])) hunfinished hlimit (body :: past)
    refine ⟨last, u, ?_, ?_⟩
    · rw [List.length_cons, ← Nat.add_assoc, hdata, hrest, List.reverse_cons,
        List.append_assoc before.reverse]
      rfl
    · rwa [List.length_cons, Nat.add_comm before.length, ← Nat.add_assoc]

/-- The answer that a place falls into. -/
theorem exists_split_flatten {place : Nat} (h : 0 < place)
    (hplace : place ≤ bodies.flatten.length) :
    ∃ before body after, bodies = before ++ body :: after ∧ before.flatten.length < place ∧
      place ≤ before.flatten.length + body.length := by
  induction bodies generalizing place with
  | nil =>
    rw [List.flatten_nil, List.length_nil] at hplace
    omega
  | cons first bodies ih =>
    rw [List.flatten_cons, List.length_append] at hplace
    by_cases hfirst : place ≤ first.length
    · exact ⟨[], first, bodies, rfl, h, by simpa using hfirst⟩
    · have hpositive : 0 < place - first.length := by omega
      obtain ⟨before, body, after, hsplit, hbefore, hbody⟩ := ih hpositive (by omega)
      refine ⟨first :: before, body, after, by rw [hsplit]; rfl, ?_, ?_⟩
      all_goals
        rw [List.flatten_cons, List.length_append]
        omega

/-! ## The whole region -/

variable {region : Region} {patience : Nat} {chunks : List (List UInt8)}

theorem ending_fetchRegion (r : Simulated) (region : Region) (patience : Nat) :
    ∃ stream s, Serving stream s r.bodies 0 ∧
      (fetchRegion patience region).ending r.device r.start =
        (do
          let (chunks, stream) ← receiveRegion patience stream (watch region.isMarked []) 0 []
          Channel.close stream
          return chunks.reverse.flatten).ending r.device s := by
  obtain ⟨stream, s, hestablish, hserving⟩ := ending_establish (r := r)
  obtain ⟨after, t, hannounce, hafter⟩ :=
    ending_announce (r := r) hserving region.code "starting region read"
  refine ⟨after, t, hafter, ?_⟩
  rw [fetchRegion, ending_bind_ok hestablish, ending_bind_ok hannounce]
  rfl

theorem ending_fetchRegion_ok (hreceive : ∀ stream s, Serving stream s r.bodies 0 →
      ∃ after t rest, (receiveRegion patience stream (watch region.isMarked []) 0 []).ending
          r.device s = (.ok (chunks, after), t) ∧ Serving after t rest asked) :
    ((fetchRegion patience region).ending r.device r.start).1 = .ok chunks.reverse.flatten ∧
      ((fetchRegion patience region).ending r.device r.start).2.asked = asked := by
  obtain ⟨stream, s, hserving, hfetch⟩ := ending_fetchRegion r region patience
  obtain ⟨after, t, rest, hchunks, hafter⟩ := hreceive stream s hserving
  obtain ⟨u, hclose, hasked⟩ := ending_close (r := r) hafter
  rw [hfetch, ending_bind_ok hchunks]
  simp only
  rw [ending_bind_ok hclose]
  exact ⟨rfl, hasked⟩

theorem ending_fetchRegion_error {halt : Halt RemoteError}
    (hreceive : ∀ stream s, Serving stream s r.bodies 0 →
      ∃ t, (receiveRegion patience stream (watch region.isMarked []) 0 []).ending r.device s =
        (.error halt, t) ∧ t.asked = asked) :
    ((fetchRegion patience region).ending r.device r.start).1 = .error halt ∧
      ((fetchRegion patience region).ending r.device r.start).2.asked = asked := by
  obtain ⟨stream, s, hserving, hfetch⟩ := ending_fetchRegion r region patience
  obtain ⟨t, herror, hasked⟩ := hreceive stream s hserving
  rw [hfetch, ending_bind_error herror]
  exact ⟨rfl, hasked⟩

/-- The loop down to the last answer that completes no marker, from the beginning of the region. -/
theorem ending_receiveRegion_front (marked : Bool) {before rest : List (List UInt8)}
    (hserving : Serving stream s r.bodies 0) (hsplit : r.bodies = before ++ rest)
    (hunfinished : Unfinished marked before.flatten) (hlimit : before.flatten.length ≤ regionLimit)
    (hpatience : r.bodies.length < patience) :
    ∃ left after t, (receiveRegion patience stream (watch marked []) 0 []).ending r.device s =
        (receiveRegion (left + 1) after (watch marked before.flatten) before.flatten.length
          before.reverse).ending r.device t ∧
      Serving after t rest before.length := by
  have hlength : before.length ≤ r.bodies.length := by
    rw [hsplit, List.length_append]
    omega
  obtain ⟨left, rfl⟩ : ∃ left, patience = left + 1 + before.length :=
    ⟨patience - 1 - before.length, by omega⟩
  have hfits : ∀ body ∈ before, body.length ≤ answerLimit := by
    intro body hbody
    apply fits_of_mem (r := r)
    rw [hsplit]
    exact List.mem_append_left rest hbody
  rw [hsplit] at hserving
  obtain ⟨after, t, hfront, hafter⟩ := ending_receiveRegion_append [] rest hserving hfits
    hunfinished hlimit (left + 1) []
  rw [List.append_nil, List.nil_append] at hfront
  rw [Nat.zero_add] at hafter
  exact ⟨left, after, t, hfront, hafter⟩

theorem fetchRegion_to_farewell (hregion : region ≠ .userConfig)
    (hpatience : r.bodies.length < patience) (hlimit : r.bodies.flatten.length ≤ regionLimit) :
    ((fetchRegion patience region).ending r.device r.start).1 = .ok r.bodies.flatten ∧
      ((fetchRegion patience region).ending r.device r.start).2.asked = r.bodies.length + 1 := by
  have hmarked : region.isMarked = false := by simpa [Region.isMarked] using hregion
  have hchunks : r.bodies.flatten = r.bodies.reverse.reverse.flatten := by
    rw [List.reverse_reverse]
  rw [hchunks]
  refine ending_fetchRegion_ok fun stream s hserving => ?_
  obtain ⟨left, after, t, hfront, hafter⟩ := ending_receiveRegion_front (r := r)
    region.isMarked hserving (List.append_nil _).symm
    (fun h => absurd (hmarked.symm.trans h) (by decide)) hlimit hpatience
  obtain ⟨last, u, hfarewell, hlast⟩ := ending_receiveRegion_farewell (r := r) hafter
    r.bodies.flatten.length left r.bodies.reverse
  rw [hmarked] at hfront ⊢
  exact ⟨last, u, [], hfront.trans hfarewell, hlast⟩

theorem fetchRegion_without_marker (hregion : region = .userConfig)
    (hpatience : r.bodies.length < patience) (hmarker : ¬ endMarker <:+: r.bodies.flatten)
    (hlimit : r.bodies.flatten.length ≤ regionLimit) :
    ((fetchRegion patience region).ending r.device r.start).1 =
        .error (.failed (.protocol (.endMarkerNotFound r.bodies.flatten.length))) ∧
      ((fetchRegion patience region).ending r.device r.start).2.asked = r.bodies.length + 1 := by
  subst hregion
  refine ending_fetchRegion_error fun stream s hserving => ?_
  obtain ⟨left, after, t, hfront, hafter⟩ := ending_receiveRegion_front (r := r) true
    hserving (List.append_nil _).symm (fun _ => hmarker) hlimit hpatience
  obtain ⟨u, hfarewell, hasked⟩ := ending_receiveRegion_unmarked (r := r) hafter
    (Carry.tail r.bodies.flatten) r.bodies.flatten.length left r.bodies.reverse
  exact ⟨u, hfront.trans hfarewell, hasked⟩

theorem fetchRegion_to_marker {place : Nat} {before after : List (List UInt8)} {body : List UInt8}
    (hregion : region = .userConfig) (hpatience : r.bodies.length < patience)
    (hfirst : FirstMarkerEnds r.bodies.flatten place) (hsplit : r.bodies = before ++ body :: after)
    (hbefore : before.flatten.length < place)
    (hbody : place ≤ before.flatten.length + body.length)
    (hlimit : before.flatten.length ≤ regionLimit) :
    ((fetchRegion patience region).ending r.device r.start).1 =
        .ok (r.bodies.flatten.take place) ∧
      ((fetchRegion patience region).ending r.device r.start).2.asked = before.length + 1 := by
  subst hregion
  have hflatten : r.bodies.flatten = before.flatten ++ body ++ after.flatten := by
    rw [hsplit, List.flatten_append, List.flatten_cons, List.append_assoc]
  have htake : r.bodies.flatten.take place =
      (body.take (place - before.flatten.length) :: before.reverse).reverse.flatten := by
    rw [hflatten, List.reverse_cons, List.reverse_reverse, List.flatten_concat,
      List.take_append_of_le_length (by rwa [List.length_append]), List.take_append,
      List.take_of_length_le hbefore.le]
  have hwindow : FirstMarkerEnds (before.flatten ++ body) place := by
    rw [hflatten] at hfirst
    exact hfirst.left (by rwa [List.length_append])
  have hunfinished := hwindow.not_infix hbefore
  have hfits : body.length ≤ answerLimit := fits_of_mem (r := r) (hsplit ▸ by simp)
  rw [htake]
  refine ending_fetchRegion_ok fun stream s hserving => ?_
  obtain ⟨left, last, t, hfront, hlast⟩ := ending_receiveRegion_front (r := r) true
    hserving hsplit (fun _ => hunfinished) hlimit hpatience
  obtain ⟨final, u, hmarker, hfinal⟩ := ending_receiveRegion_marker (r := r) hlast hfits
    hunfinished hwindow left before.reverse
  exact ⟨final, u, after, hfront.trans hmarker, hfinal⟩

/-- What the host makes of a region that a remote serves in any cut. -/
theorem fetchRegion_simulated (r : Simulated) (region : Region) (patience : Nat)
    (hpatience : r.bodies.length < patience)
    (hlimit : ∀ before, before <+: r.bodies →
      (region = .userConfig → ¬ endMarker <:+: before.flatten) →
      before.flatten.length ≤ regionLimit) :
    let ending := (fetchRegion patience region).ending r.device r.start
    (region ≠ .userConfig →
      ending.1 = .ok r.bodies.flatten ∧ ending.2.asked = r.bodies.length + 1) ∧
    (region = .userConfig → ¬ endMarker <:+: r.bodies.flatten →
      ending.1 = .error (.failed (.protocol (.endMarkerNotFound r.bodies.flatten.length))) ∧
        ending.2.asked = r.bodies.length + 1) ∧
    (region = .userConfig → endMarker <:+: r.bodies.flatten →
      ∃ place before body after, FirstMarkerEnds r.bodies.flatten place ∧
        r.bodies = before ++ body :: after ∧ before.flatten.length < place ∧
        place ≤ before.flatten.length + body.length ∧
        ending.1 = .ok (r.bodies.flatten.take place) ∧ ending.2.asked = before.length + 1) := by
  refine ⟨fun hregion => ?_, fun hregion hmarker => ?_, fun hregion hmarker => ?_⟩
  · exact fetchRegion_to_farewell hregion hpatience
      (hlimit r.bodies (List.prefix_refl _) fun h => absurd h hregion)
  · exact fetchRegion_without_marker hregion hpatience hmarker
      (hlimit r.bodies (List.prefix_refl _) fun _ => hmarker)
  · obtain ⟨place, hfirst⟩ := exists_firstMarkerEnds hmarker
    have hfour := hfirst.1.four_le
    obtain ⟨before, body, after, hsplit, hbefore, hbody⟩ :=
      exists_split_flatten (by omega) hfirst.1.1
    have hunfinished : ¬ endMarker <:+: before.flatten := by
      rw [hsplit, List.flatten_append] at hfirst
      exact hfirst.not_infix hbefore
    have hlimit := hlimit before (hsplit ▸ List.prefix_append _ _) fun _ => hunfinished
    exact ⟨place, before, body, after, hfirst, hsplit, hbefore, hbody,
      fetchRegion_to_marker hregion hpatience hfirst hsplit hbefore hbody hlimit⟩

/-- A remote whose region has its end marker behind a false start, over three packets and an empty
one. -/
def overlapping : Simulated where
  consent := [4, 0x01, 0x01, 0x40, 0x01]
  consents := ⟨_, rfl⟩
  number := 0xF8
  dress := fun sent => ⟨if sent = 2 then 0xA0 else 0x80, 0x00, 0x01, [0xEE]⟩
  announcement := []
  bodies := [[0x78, 0x44, 0x44, 0x4B], [], [0x44], [0x4B, 0x44, 0x4B], [0x7A]]
  farewell := (0x00, [])
  fits := by decide
  closes := true
  trailing := []

theorem fetchRegion_simulated_overlapping :
    overlapping.bodies.length < 6 ∧
    (∀ before, before <+: overlapping.bodies →
      (Region.userConfig = .userConfig → ¬ endMarker <:+: before.flatten) →
      before.flatten.length ≤ regionLimit) ∧
    endMarker <:+: overlapping.bodies.flatten ∧
    ((fetchRegion 6 .userConfig).ending overlapping.device overlapping.start).1 =
      .ok [0x78, 0x44, 0x44, 0x4B, 0x44, 0x4B] ∧
    ((fetchRegion 6 .userConfig).ending overlapping.device overlapping.start).2.asked = 4 := by
  have hlimit : ∀ before, before <+: overlapping.bodies →
      (Region.userConfig = .userConfig → ¬ endMarker <:+: before.flatten) →
      before.flatten.length ≤ regionLimit := by
    rintro before ⟨rest, hrest⟩ -
    have hlength : (before ++ rest).flatten.length = 9 := by
      rw [hrest]
      rfl
    have hroom : 9 ≤ regionLimit := by decide
    rw [List.flatten_append, List.length_append] at hlength
    omega
  have hmarker : endMarker <:+: overlapping.bodies.flatten :=
    ⟨[0x78, 0x44], [0x44, 0x4B, 0x7A], rfl⟩
  have hplace : FirstMarkerEnds overlapping.bodies.flatten 6 := markerStop_eq_some_iff.1 rfl
  obtain ⟨place, before, body, after, hfirst, -, -, -, hresult, -⟩ :=
    (fetchRegion_simulated overlapping .userConfig 6 (by decide) hlimit).2.2 rfl hmarker
  obtain rfl := hfirst.unique hplace
  exact ⟨by decide, hlimit, hmarker, hresult, rfl⟩

end Simulated

end UniversalRemote.Z
