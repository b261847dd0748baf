import StreamSocket.L3Protocol.ArpRun

/-!
# The datagrams that wait for an address

The lookup of a pending entry returns a copy, and a datagram that finds an
entry is pushed to the copy only: the entry keeps the first datagram and none
of the later ones.

* `flushes_iff`: in a run, each ARP message that is learned sends out all that
  was submitted and not sent, in order, exactly when that is one datagram at
  most each time.
* `flushes_broken`: of two datagrams submitted before the reply, the second is
  lost.
-/
namespace StreamSocket.L3.ArpRun

open L1 L2

/-- Learning an address sends every unsent datagram to it, once and in the
order of submission. -/
def Flushes (s : State) (l : Label) (s' : State) : Prop :=
  match l with
  | .recvFrame frame => ∀ recv ∈ s.n.processed frame,
      (s.unsent recv.senderIpAddress).mapM (s.n.dgramFrame recv.senderEthernetAddress) =
        some ((newFrames s.n s'.n).filter isIPv4)
  | _ => True

/-- When an address is learned, at most one datagram was submitted for it and
not sent. -/
def AtMostOne (s : State) (l : Label) (_ : State) : Prop :=
  match l with
  | .recvFrame frame => ∀ recv ∈ s.n.processed frame, (s.unsent recv.senderIpAddress).length ≤ 1
  | _ => True

instance (s : State) (l : Label) (s' : State) : Decidable (AtMostOne s l s') :=
  match l with
  | .recvFrame frame => inferInstanceAs (Decidable (∀ recv ∈ s.n.processed frame,
      (s.unsent recv.senderIpAddress).length ≤ 1))
  | .sendDatagram _ _ | .tick _ | .maybeSend => inferInstanceAs (Decidable True)

/-! ## Frames and datagrams -/

theorem forall₂_of_mapM {α β : Type} {f : α → Option β} : ∀ {xs : List α} {ys : List β},
    xs.mapM f = some ys → List.Forall₂ (fun x y => f x = some y) xs ys
  | [], ys, h => by
    rw [List.mapM_nil] at h
    cases h
    exact .nil
  | x :: xs, ys, h => by
    rw [List.mapM_cons] at h
    obtain ⟨y, hy, h⟩ := Option.bind_eq_some_iff.mp h
    obtain ⟨zs, hz, h⟩ := Option.bind_eq_some_iff.mp h
    cases h
    exact .cons hy (forall₂_of_mapM hz)

theorem isIPv4_of_dgramFrame {n : NetworkInterface} {mac : EthernetAddress}
    {dgram : IPv4Datagram} {frame : EthernetFrame} (h : n.dgramFrame mac dgram = some frame) :
    isIPv4 frame := by
  obtain ⟨payload, -, rfl⟩ := Option.map_eq_some_iff.mp h
  rfl

/-- Only the datagrams' frames are IPv4. -/
theorem filter_isIPv4 {n n' : NetworkInterface} {recv : ARPMessage}
    {frames reply : List EthernetFrame} (h : n.Learns recv n' frames reply) :
    (newFrames n n').filter isIPv4 = frames := by
  have hall : ∀ frame ∈ frames, isIPv4 frame := by
    intro frame hm
    obtain ⟨i, hi, rfl⟩ := List.getElem_of_mem hm
    have := (List.forall₂_iff_get.mp (forall₂_of_mapM h.sent)).2 i
      ((forall₂_of_mapM h.sent).length_eq ▸ hi) hi
    exact isIPv4_of_dgramFrame this
  have hnone : ∀ frame ∈ reply, ¬ isIPv4 frame := by
    intro frame hm
    unfold isIPv4
    rw [h.reply frame hm]
    decide
  rw [newFrames_push (h.queue.trans (List.append_assoc ..)), List.filter_append,
    List.filter_eq_self.mpr hall, List.filter_eq_nil_iff.mpr hnone, List.append_nil]

/-- All is sent when each datagram has its frame. -/
theorem stillUnsent_all {n : NetworkInterface} {mac : EthernetAddress}
    {dgrams : List IPv4Datagram} {frames : List EthernetFrame} (reply : List EthernetFrame)
    (h : List.Forall₂ (fun d f => n.dgramFrame mac d = some f) dgrams frames) :
    stillUnsent n mac (frames ++ reply) dgrams = [] := by
  induction h with
  | nil =>
    unfold stillUnsent
    rw [List.nil_append]
    induction reply with
    | nil => rfl
    | cons f fs ih => exact ih
  | cons hf _ ih =>
    unfold stillUnsent at ih ⊢
    rw [List.cons_append, List.foldl_cons, List.eraseP_cons_of_pos (by simpa using hf)]
    exact ih

/-! ## The entry keeps the first datagram -/

/-- An entry holds the first of the unsent datagrams. -/
structure Kept (s : State) (x : UInt32) : Prop where
  first : s.n.waiting x = (s.unsent x).take 1
  nonempty : ∀ queue age, s.n.ipAddrToEthernetDatagramQueue x = some (queue, age) → queue ≠ []

theorem Kept.congr {s s' : State} {x : UInt32} (h : Kept s x)
    (hq : s'.n.ipAddrToEthernetDatagramQueue x = s.n.ipAddrToEthernetDatagramQueue x)
    (hu : s'.unsent x = s.unsent x) : Kept s' x := by
  refine ⟨?_, fun queue age h0 => h.nonempty queue age (hq ▸ h0)⟩
  unfold NetworkInterface.waiting
  rw [hq, hu]
  exact h.first

theorem waiting_of_some {n : NetworkInterface} {x : UInt32} {queue : List IPv4Datagram}
    {age : UInt32} (h : n.ipAddrToEthernetDatagramQueue x = some (queue, age)) :
    n.waiting x = queue := by
  unfold NetworkInterface.waiting
  rw [h]
  rfl

theorem waiting_of_none {n : NetworkInterface} {x : UInt32}
    (h : n.ipAddrToEthernetDatagramQueue x = none) : n.waiting x = [] := by
  unfold NetworkInterface.waiting
  rw [h]
  rfl

/-- A later datagram does not change what comes first. -/
theorem Kept.later {s s' : State} {ip x : UInt32} {dgram : IPv4Datagram} (h : Kept s x)
    {queue : List IPv4Datagram} {age : UInt32}
    (hq : s.n.ipAddrToEthernetDatagramQueue ip = some (queue, age))
    (hq' : s'.n.ipAddrToEthernetDatagramQueue = s.n.ipAddrToEthernetDatagramQueue)
    (hu : s'.unsent = Function.update s.unsent ip (s.unsent ip ++ [dgram])) : Kept s' x := by
  by_cases hx : x = ip
  · subst hx
    have hne : s.unsent x ≠ [] := fun h0 => by
      have h1 := h.first
      rw [waiting_of_some hq, h0] at h1
      exact h.nonempty queue age hq h1
    refine ⟨?_, fun queue' age' h0 => h.nonempty queue' age' (by rw [← hq', h0])⟩
    unfold NetworkInterface.waiting
    rw [hq', hu, Function.update_self, List.take_append_of_le_length
      (List.length_pos_of_ne_nil hne)]
    exact h.first
  · exact h.congr (congrFun hq' x) (by rw [hu, Function.update_of_ne hx])

theorem Kept.submitted {s : State} {x : UInt32} (h : Kept s x) {dgram : IPv4Datagram}
    {ip : UInt32} {n' : NetworkInterface} (hs : s.n.Sends dgram ip n') :
    Kept (submitted s dgram ip n') x := by
  have hu : (ArpRun.submitted s dgram ip n').unsent = if s.n.ipAddrToEthernetAddr ip = none then
    Function.update s.unsent ip (s.unsent ip ++ [dgram]) else s.unsent := rfl
  cases hs with
  | now mac age frame hc hf =>
    rw [if_neg (by rw [hc]; exact Option.some_ne_none _)] at hu
    exact h.congr rfl (congrFun hu x)
  | wait queue age hc hq =>
    rw [if_pos hc] at hu
    exact h.later hq rfl hu
  | again queue age hc hq =>
    rw [if_pos hc] at hu
    exact h.later hq rfl hu
  | ask hc hq =>
    rw [if_pos hc] at hu
    by_cases hx : x = ip
    · subst hx
      have hnil : s.unsent x = [] := by
        have h1 := h.first
        rw [waiting_of_none hq] at h1
        exact (List.take_eq_nil_iff.mp h1.symm).resolve_left (by decide)
      have hq' : (ArpRun.submitted s dgram x ({ s.n with
          ipAddrToEthernetDatagramQueue := Function.update s.n.ipAddrToEthernetDatagramQueue x
            (some ([dgram], 0)) }.push [s.n.requestFrame x])).n.ipAddrToEthernetDatagramQueue x =
          some ([dgram], 0) := Function.update_self ..
      refine ⟨?_, fun queue age h0 => ?_⟩
      · rw [waiting_of_some hq', hu, Function.update_self, hnil]
        rfl
      · rw [hq'] at h0
        cases h0
        exact List.cons_ne_nil _ _
    · exact h.congr (Function.update_of_ne hx ..) (by rw [hu, Function.update_of_ne hx])

/-- At most one unsent datagram is the one that waits. -/
theorem Kept.all {s : State} {x : UInt32} (h : Kept s x) (hl : (s.unsent x).length ≤ 1) :
    s.n.waiting x = s.unsent x := by
  rw [h.first, List.take_of_length_le hl]

theorem Kept.learned {s : State} (h : ∀ x, Kept s x) {recv : ARPMessage} {n' : NetworkInterface}
    {frames reply : List EthernetFrame} (hl : s.n.Learns recv n' frames reply)
    (h1 : (s.unsent recv.senderIpAddress).length ≤ 1) (x : UInt32) :
    Kept (learned s recv n') x := by
  have hq : (ArpRun.learned s recv n').n.ipAddrToEthernetDatagramQueue =
    Function.update s.n.ipAddrToEthernetDatagramQueue recv.senderIpAddress none := hl.pending
  by_cases hx : x = recv.senderIpAddress
  · have hsent := hl.sent
    rw [(h _).all h1] at hsent
    have hnil : (ArpRun.learned s recv n').unsent x = [] := by
      show Function.update s.unsent recv.senderIpAddress _ x = []
      rw [hx, Function.update_self, newFrames_push (hl.queue.trans (List.append_assoc ..))]
      exact stillUnsent_all reply (forall₂_of_mapM hsent)
    have hnone : (ArpRun.learned s recv n').n.ipAddrToEthernetDatagramQueue x = none := by
      rw [hq, hx, Function.update_self]
    refine ⟨?_, fun queue age h0 => ?_⟩
    · rw [waiting_of_none hnone, hnil]
      rfl
    · rw [hnone] at h0
      cases h0
  · exact (h x).congr (by rw [hq, Function.update_of_ne hx]) (Function.update_of_ne hx ..)

theorem Kept.tick {s : State} {x : UInt32} (h : Kept s x) (ms : Nat) :
    Kept { s with n := s.n.tick ms, clock := s.clock + ms } x := by
  have hq : (s.n.tick ms).ipAddrToEthernetDatagramQueue x =
      (s.n.ipAddrToEthernetDatagramQueue x).map fun e => (e.1, e.2 + UInt32.ofNat ms) := rfl
  refine ⟨?_, fun queue age h0 => ?_⟩
  · have hf := h.first
    unfold NetworkInterface.waiting at hf ⊢
    rw [hq, Option.map_map]
    exact hf
  · obtain ⟨⟨queue', age'⟩, h1, he⟩ := Option.map_eq_some_iff.mp (hq ▸ h0)
    cases he
    exact h.nonempty queue' age' h1

theorem Kept.step {s s' : State} {l : Label} (h : ∀ x, Kept s x) (hc : AtMostOne s l s')
    (hs : step s l = some s') : ∀ x, Kept s' x := by
  cases l with
  | sendDatagram dgram nextHop =>
    obtain ⟨n', hn, rfl⟩ := step_sendDatagram hs
    exact fun x => (h x).submitted hn
  | recvFrame frame =>
    rcases step_recvFrame hs with ⟨-, rfl⟩ | ⟨recv, n', frames, reply, hp, hl, rfl⟩
    · exact h
    · exact Kept.learned h hl (hc recv hp)
  | tick ms =>
    cases hs
    exact fun x => (h x).tick ms
  | maybeSend =>
    cases hs
    intro x
    refine (h x).congr ?_ rfl
    show s.n.maybeSend.2.ipAddrToEthernetDatagramQueue x = _
    rw [NetworkInterface.maybeSend_snd]

/-- A message flushes exactly when there is no second datagram. -/
theorem flushes_step_iff {s s' : State} {l : Label} (h : ∀ x, Kept s x)
    (hs : step s l = some s') : AtMostOne s l s' ↔ Flushes s l s' := by
  cases l with
  | recvFrame frame =>
    show (∀ recv ∈ s.n.processed frame, _) ↔ ∀ recv ∈ s.n.processed frame, _ = _
    rcases step_recvFrame hs with ⟨hp, -⟩ | ⟨recv, n', frames, reply, hp, hl, rfl⟩
    · rw [hp]
      exact iff_of_true (fun _ h0 => nomatch h0) (fun _ h0 => nomatch h0)
    · simp only [hp, Option.mem_def, Option.some.injEq, forall_eq']
      rw [show (newFrames s.n (learned s recv n').n).filter isIPv4 = frames from filter_isIPv4 hl]
      refine ⟨fun h1 => ?_, fun hall => ?_⟩
      · rw [← (h _).all h1]
        exact hl.sent
      · have e1 := (forall₂_of_mapM hall).length_eq
        have e2 := (forall₂_of_mapM hl.sent).length_eq
        rw [(h _).first, List.length_take] at e2
        omega
  | _ => exact iff_of_true trivial trivial

/-- **When nothing is lost.** All ARP messages of a run flush what is unsent
exactly when each finds at most one datagram unsent. -/
theorem flushes_iff (s₀ : State) (h0 : lts.init s₀) (ls : List Label) (s : State) :
    (lts.restrict AtMostOne).Run s₀ ls s ↔ (lts.restrict Flushes).Run s₀ ls s := by
  refine LTS.run_restrict_iff (M := lts) (I := fun s => ∀ x, Kept s x)
    (fun s l s' h hs hc => Kept.step h hc hs) (fun s l s' h hs => flushes_step_iff h hs) ?_
  obtain ⟨e, i, rfl⟩ := h0
  exact fun x => ⟨rfl, fun _ _ h => nomatch h⟩

def oneStep (s : State) (l : Label) : Option State :=
  (step s l).filter fun s' => decide (AtMostOne s l s')

/-- Two addresses, and one datagram for each. -/
theorem flushes_iff_run : ∃ s, (lts.restrict Flushes).Run (.start {} {})
    [.sendDatagram {} ⟨7, 0⟩, .sendDatagram {} ⟨8, 0⟩, .tick 6000,
      .recvFrame (replyFrom 7 ⟨1, 2, 3, 4, 5, 6⟩), .maybeSend] s := by
  obtain ⟨s, hs⟩ := Option.isSome_iff_exists.mp (show (LTS.exec oneStep (.start {} {})
    [.sendDatagram {} ⟨7, 0⟩, .sendDatagram {} ⟨8, 0⟩, .tick 6000,
      .recvFrame (replyFrom 7 ⟨1, 2, 3, 4, 5, 6⟩), .maybeSend]).isSome = true by decide +kernel)
  exact ⟨s, (flushes_iff _ ⟨{}, {}, rfl⟩ _ s).mp
    (LTS.run_of_filter (M := lts.restrict AtMostOne) (fun _ _ _ h hc => ⟨h, hc⟩) hs)⟩

/-- The reply sends one frame for two datagrams. -/
theorem flushes_broken : ∃ s s', lts.Run (.start {} {})
    [.sendDatagram { payload := [[1]] } ⟨7, 0⟩, .sendDatagram { payload := [[2]] } ⟨7, 0⟩] s ∧
    step s (.recvFrame (replyFrom 7 ⟨1, 2, 3, 4, 5, 6⟩)) = some s' ∧
    s.unsent 7 = [{ payload := [[1]] }, { payload := [[2]] }] ∧
    ((newFrames s.n s'.n).filter isIPv4).length = 1 ∧
    ¬ Flushes s (.recvFrame (replyFrom 7 ⟨1, 2, 3, 4, 5, 6⟩)) s' := by
  have hx : ((LTS.exec step (.start {} {}) [.sendDatagram { payload := [[1]] } ⟨7, 0⟩,
      .sendDatagram { payload := [[2]] } ⟨7, 0⟩]).bind fun s =>
        (step s (.recvFrame (replyFrom 7 ⟨1, 2, 3, 4, 5, 6⟩))).map fun s' =>
          (s.unsent 7, ((newFrames s.n s'.n).filter isIPv4).length,
            (s.n.processed (replyFrom 7 ⟨1, 2, 3, 4, 5, 6⟩)).map (·.senderIpAddress))) =
      some ([{ payload := [[1]] }, { payload := [[2]] }], 1, some 7) := by decide +kernel
  obtain ⟨s, hs, hx⟩ := Option.bind_eq_some_iff.mp hx
  obtain ⟨s', hs', hx⟩ := Option.map_eq_some_iff.mp hx
  simp only [Prod.mk.injEq] at hx
  obtain ⟨hu, hl, hp⟩ := hx
  obtain ⟨recv, hp, hip⟩ := Option.map_eq_some_iff.mp hp
  refine ⟨s, s', LTS.run_of_exec hs, hs', hu, hl, fun hf => ?_⟩
  have := (forall₂_of_mapM (hf recv hp)).length_eq
  rw [hip, hu, hl] at this
  exact absurd this (by decide)

end StreamSocket.L3.ArpRun
