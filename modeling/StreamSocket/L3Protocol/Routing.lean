import StreamSocket.L2Machine.Router

/-!
# Routing by the longest prefix

What one call of `route` does, for any number of interfaces, any route table
with well-formed records and anything received.

* `search_spec`: the running maximum ends at the longest match, the earliest
  of equals.
* `route_longest_match`: `route` ends with nothing left to forward, and its
  calls of `send_datagram` are one for each datagram that is to be forwarded,
  in the order of the interfaces and queues.
* `route_bases`: those calls, in that order, are all that happens to the
  interfaces.
-/
namespace StreamSocket.L3.Routing

open L1 L2

/-! ## The longest match -/

/-- The leading bits of `dst` are those of the record. -/
def Covers (rec : RouteRecord) (dst : UInt32) : Prop :=
  dst.toNat / 2 ^ rec.tail = rec.routePrefix.toNat / 2 ^ rec.tail

/-- Of the records that cover `dst`, the first among those with the longest
prefix. -/
def LongestMatch (table : List RouteRecord) (dst : UInt32) (rec : RouteRecord) : Prop :=
  ∃ before after, table = before ++ rec :: after ∧ Covers rec dst ∧
    (∀ r ∈ before, Covers r dst → r.prefixLength < rec.prefixLength) ∧
    ∀ r ∈ after, Covers r dst → r.prefixLength ≤ rec.prefixLength

/-- A record that `route` can follow: no bits behind the prefix, and an index
of one of `n` interfaces. The search keeps it in an `int`, so it is below 2^31. -/
structure WellFormed (n : Nat) (rec : RouteRecord) : Prop where
  length : rec.prefixLength.toNat ≤ 32
  clean : rec.routePrefix.toNat % 2 ^ rec.tail = 0
  index : rec.interfaceNum < n
  int : rec.interfaceNum < 2 ^ 31

theorem WellFormed.applies_iff {n : Nat} {rec : RouteRecord} (h : WellFormed n rec)
    (dst : UInt32) : rec.applies dst ↔ Covers rec dst := by
  rw [RouteRecord.applies_iff h.length, and_iff_left h.clean]
  rfl

theorem LongestMatch.concat {table : List RouteRecord} {dst : UInt32} {rec r : RouteRecord}
    (h : LongestMatch table dst rec) (hr : Covers r dst → r.prefixLength ≤ rec.prefixLength) :
    LongestMatch (table ++ [r]) dst rec := by
  obtain ⟨before, after, rfl, hc, hb, ha⟩ := h
  refine ⟨before, after ++ [r], by simp, hc, hb, fun r' hr' => ?_⟩
  rcases List.mem_append.mp hr' with hm | hm
  · exact ha r' hm
  · rw [List.mem_singleton.mp hm]
    exact hr

theorem LongestMatch.longer {table : List RouteRecord} {dst : UInt32} {rec r : RouteRecord}
    (h : LongestMatch table dst rec) (hr : Covers r dst)
    (hlt : rec.prefixLength < r.prefixLength) : LongestMatch (table ++ [r]) dst r := by
  obtain ⟨before, after, rfl, -, hb, ha⟩ := h
  refine ⟨_, [], rfl, hr, fun r' hr' hc' => ?_, fun _ hm => nomatch hm⟩
  rcases List.mem_append.mp hr' with hm | hm
  · exact UInt8.lt_trans (hb r' hm hc') hlt
  · rcases List.mem_cons.mp hm with rfl | hm
    · exact hlt
    · exact UInt8.lt_of_le_of_lt (ha r' hm hc') hlt

/-! ## The search -/

/-- What the variables of the search hold for a record. -/
def found (rec : RouteRecord) : Router.Search :=
  { nextHop := rec.nextHop
    interfaceNum := rec.interfaceNum
    maxMatchLen := rec.prefixLength.toNat }

theorem visit_eq {n : Nat} {rec : RouteRecord} (h : WellFormed n rec) (dst : UInt32)
    (best : Router.Search) : (Covers rec dst ∧ best.maxMatchLen < rec.prefixLength.toNat ∧
        Router.visit dst best rec = found rec) ∨
      (¬ (Covers rec dst ∧ best.maxMatchLen < rec.prefixLength.toNat) ∧
        Router.visit dst best rec = best) := by
  have hint : Int.bmod rec.interfaceNum (2 ^ 32) = rec.interfaceNum := by
    have := h.int
    exact Int.bmod_eq_of_le (by omega) (by omega)
  unfold Router.visit
  by_cases hc : Covers rec dst
  · rw [if_pos ((h.applies_iff dst).mpr hc)]
    by_cases hl : best.maxMatchLen < rec.prefixLength.toNat
    · rw [if_pos hl, hint]
      exact .inl ⟨hc, hl, rfl⟩
    · rw [if_neg hl]
      exact .inr ⟨fun h0 => hl h0.2, rfl⟩
  · rw [if_neg fun h0 => hc ((h.applies_iff dst).mp h0)]
    exact .inr ⟨fun h0 => hc h0.1, rfl⟩

theorem found_interfaceNum (rec : RouteRecord) :
    (found rec).interfaceNum ≠ -1 ∧ ¬ (found rec).interfaceNum < 0 := by
  have : (found rec).interfaceNum = rec.interfaceNum := rfl
  omega

/-- The running maximum ends at the longest match, or finds nothing. -/
theorem search_spec {n : Nat} {table : List RouteRecord} (h : ∀ rec ∈ table, WellFormed n rec)
    (dst : UInt32) :
    (Router.search table dst = {} ∧ ∀ rec ∈ table, ¬ Covers rec dst) ∨
      ∃ rec, LongestMatch table dst rec ∧ Router.search table dst = found rec := by
  induction table using List.reverseRecOn with
  | nil => exact .inl ⟨rfl, fun _ hm => nomatch hm⟩
  | append_singleton table r ih =>
    have hstep : Router.search (table ++ [r]) dst =
        Router.visit dst (Router.search table dst) r := by
      unfold Router.search
      rw [List.foldl_append]
      rfl
    have hr := visit_eq (h r (List.mem_append_right _ List.mem_cons_self)) dst
      (Router.search table dst)
    rw [← hstep] at hr
    rcases ih fun rec hm => h rec (List.mem_append_left _ hm) with ⟨he, hno⟩ | ⟨rec, hl, he⟩
    · -- nothing before: `r` is found if it covers `dst` at all
      rcases hr with ⟨hc, -, hs⟩ | ⟨hn, hs⟩
      · exact .inr ⟨r, ⟨table, [], rfl, hc, fun r' hm hc' => absurd hc' (hno r' hm),
          fun _ hm => nomatch hm⟩, hs⟩
      · refine .inl ⟨hs.trans he, fun rec hm => ?_⟩
        rcases List.mem_append.mp hm with hm | hm
        · exact hno rec hm
        · rw [List.mem_singleton.mp hm]
          refine fun hc => hn ⟨hc, ?_⟩
          rw [he]
          exact Int.lt_of_lt_of_le (by decide) (Int.natCast_nonneg _)
    · rcases hr with ⟨hc, hlt, hs⟩ | ⟨hn, hs⟩
      · rw [he] at hlt
        exact .inr ⟨r, hl.longer hc (Int.ofNat_lt.mp hlt), hs⟩
      · refine .inr ⟨rec, hl.concat fun hc => ?_, hs.trans he⟩
        rw [he] at hn
        have := not_and.mp hn hc
        exact UInt8.le_iff_toNat_le.mpr (Nat.not_lt.mp fun h0 => this (Int.ofNat_lt.mpr h0))

/-! ## One datagram -/

/-- What is to be done with a datagram: dropped, or sent to where the longest
match says, with one hop less to live and the checksum that goes with it. -/
def Forwarded (table : List RouteRecord) (d : IPv4Datagram) : Option SendCall → Prop
  | none => d.header.ttl ≤ 1 ∨ ∀ rec ∈ table, ¬ Covers rec d.header.dst
  | some call => 1 < d.header.ttl ∧ ∃ rec, LongestMatch table d.header.dst rec ∧
      call.interfaceNum = rec.interfaceNum ∧
      call.nextHop = rec.nextHop.getD (Address.fromIpv4Numeric d.header.dst) ∧
      call.dgram.payload = d.payload ∧
      (∃ cksum, call.dgram.header = { d.header with ttl := d.header.ttl - 1, cksum := cksum }) ∧
      call.dgram.header.ttl.toNat + 1 = d.header.ttl.toNat ∧
      call.dgram.header.computeChecksum = some call.dgram.header ∧
      call.dgram.header.summed.value = 0

/-- What `forward` does with a datagram. -/
def outcome (table : List RouteRecord) (d : IPv4Datagram) : Option SendCall :=
  if d.header.ttl ≤ 1 then none
  else if (Router.search table d.header.dst).interfaceNum = -1 then none
  else
    (IPv4Header.computeChecksum { d.header with ttl := d.header.ttl - 1 }).map
      (Router.callOf (Router.search table d.header.dst) d)

theorem outcome_forwarded {n : Nat} {table : List RouteRecord}
    (h : ∀ rec ∈ table, WellFormed n rec) {d : IPv4Datagram} (hv : d.header.ver = 4) :
    Forwarded table d (outcome table d) := by
  unfold outcome
  by_cases ht : d.header.ttl ≤ 1
  · rw [if_pos ht]
    exact .inl ht
  · rw [if_neg ht]
    rcases search_spec h d.header.dst with ⟨he, hno⟩ | ⟨rec, hl, he⟩
    · rw [he, if_pos rfl]
      exact .inr hno
    · rw [he, if_neg (found_interfaceNum rec).1]
      have hc := IPv4Header.computeChecksum_eq
        (h := { d.header with ttl := d.header.ttl - 1 }) hv
      have hown := IPv4Header.computeChecksum_of_own
        (h := { d.header with ttl := d.header.ttl - 1 }) hv hc
      have hsum := IPv4Header.checksum_own (h := { d.header with ttl := d.header.ttl - 1 }) hv hc
      rw [hc, Option.map_some]
      have h1 : 1 < d.header.ttl := UInt8.not_le.mp ht
      refine ⟨h1, rec, hl, rfl, rfl, rfl, ⟨_, rfl⟩, ?_, hown.1, hsum⟩
      have h2 : (1 : UInt8).toNat < d.header.ttl.toNat := h1
      show (d.header.ttl - 1).toNat + 1 = d.header.ttl.toNat
      rw [UInt8.toNat_sub_of_le _ _ (UInt8.le_of_lt h1)]
      rw [show (1 : UInt8).toNat = 1 from rfl] at h2 ⊢
      omega

/-- What the interfaces have received and not been asked for. -/
def queues (r : Router) : List (List IPv4Datagram) := r.interfaces.map (·.datagramsIn)

theorem queues_length (r : Router) : (queues r).length = r.interfaces.length := List.length_map _

theorem send_eq {r : Router} {call : SendCall} (hi : call.interfaceNum < r.interfaces.length)
    (hv : call.dgram.header.ver = 4) :
    ∃ r', r.send call = some r' ∧ r'.routeTable = r.routeTable ∧ queues r' = queues r := by
  obtain ⟨base, hb⟩ := NetworkInterface.sendDatagram_isSome
    r.interfaces[call.interfaceNum].base call.nextHop hv
  let interface : AsyncNetworkInterface :=
    { base := base, datagramsIn := r.interfaces[call.interfaceNum].datagramsIn }
  refine ⟨{ r with interfaces := r.interfaces.set call.interfaceNum interface }, ?_, rfl, ?_⟩
  · unfold Router.send
    rw [List.getElem?_eq_getElem hi, Option.bind_some, hb, Option.map_some]
  · unfold queues
    rw [List.map_set]
    refine List.ext_getElem (by simp) fun k hk hk' => ?_
    rw [List.getElem_set]
    split
    · next he => subst he; rw [List.getElem_map]
    · rfl

/-- One round of the loop makes the one call, or none. -/
theorem forward_eq {r : Router} (h : ∀ rec ∈ r.routeTable, WellFormed r.interfaces.length rec)
    {d : IPv4Datagram} (hv : d.header.ver = 4) :
    ∃ r', r.forward d = some (r', (outcome r.routeTable d).toList) ∧
      r'.routeTable = r.routeTable ∧ queues r' = queues r := by
  unfold Router.forward outcome
  by_cases ht : d.header.ttl ≤ 1
  · rw [if_pos ht, if_pos ht]
    exact ⟨r, rfl, rfl, rfl⟩
  · rw [if_neg ht, if_neg ht]
    rcases search_spec h d.header.dst with ⟨he, -⟩ | ⟨rec, hl, he⟩
    · simp only [he, if_true]
      exact ⟨r, rfl, rfl, rfl⟩
    · obtain ⟨hne, hpos⟩ := found_interfaceNum rec
      obtain ⟨before, after, htable, -⟩ := hl
      have hindex := (h rec (by rw [htable]; simp)).index
      obtain ⟨header, hc⟩ : ∃ header, IPv4Header.computeChecksum
          { d.header with ttl := d.header.ttl - 1 } = some header :=
        ⟨_, IPv4Header.computeChecksum_eq hv⟩
      have hver := (IPv4Header.computeChecksum_of_own
        (h := { d.header with ttl := d.header.ttl - 1 }) hv hc).2
      have hlt : (Router.callOf (found rec) d header).interfaceNum < r.interfaces.length := hindex
      obtain ⟨r', hs, h1, h2⟩ := send_eq hlt hver
      simp only [he, if_neg hne, if_neg hpos, hc, Option.bind_some, Option.map_some, hs]
      exact ⟨r', rfl, h1, h2⟩

/-! ## The loops -/

theorem interface_of_queue {r : Router} {i : Nat} {q : List IPv4Datagram}
    (h : (queues r)[i]? = some q) :
    ∃ interface, r.interfaces[i]? = some interface ∧ interface.datagramsIn = q := by
  unfold queues at h
  rw [List.getElem?_map] at h
  exact Option.map_eq_some_iff.mp h

/-- The loop of one interface makes the calls for its queue. -/
theorem drain_eq {i : Nat} : ∀ {q : List IPv4Datagram} {r : Router},
    (∀ rec ∈ r.routeTable, WellFormed r.interfaces.length rec) → (queues r)[i]? = some q →
    (∀ d ∈ q, d.header.ver = 4) → ∃ r', r'.routeTable = r.routeTable ∧
      queues r' = (queues r).set i [] ∧ ∀ fuel, q.length < fuel →
        Router.drain i fuel r = some (r', q.filterMap (outcome r.routeTable))
  | [], r, _, hi, _ => by
    obtain ⟨interface, hr, hq⟩ := interface_of_queue hi
    have hself : (queues r).set i [] = queues r := by
      obtain ⟨hlt, he⟩ := List.getElem?_eq_some_iff.mp hi
      rw [← he]
      exact List.set_getElem_self hlt
    refine ⟨r, rfl, hself.symm, fun fuel hf => ?_⟩
    obtain ⟨fuel, rfl⟩ := Nat.exists_eq_succ_of_ne_zero (Nat.ne_zero_of_lt hf)
    rw [Router.drain, hr, Option.bind_some]
    unfold AsyncNetworkInterface.maybeReceive
    rw [hq]
    rfl
  | d :: q, r, h, hi, hv => by
    obtain ⟨interface, hr, hq⟩ := interface_of_queue hi
    -- the state in which the datagram is forwarded
    let interface' : AsyncNetworkInterface := { interface with datagramsIn := q }
    let r₁ : Router := { r with interfaces := r.interfaces.set i interface' }
    have hq₁ : queues r₁ = (queues r).set i q := List.map_set
    have hlen₁ : r₁.interfaces.length = r.interfaces.length := List.length_set
    obtain ⟨r₂, hf, ht₂, hq₂⟩ := forward_eq (r := r₁) (by rw [hlen₁]; exact h)
      (hv d List.mem_cons_self)
    have hlen₂ : r₂.interfaces.length = r.interfaces.length := by
      rw [← queues_length, hq₂, queues_length, hlen₁]
    have hi₂ : (queues r₂)[i]? = some q := by
      rw [hq₂, hq₁, List.getElem?_set_self (List.getElem?_eq_some_iff.mp hi).1]
    obtain ⟨r', ht', hq', hd⟩ := drain_eq (by rw [hlen₂, ht₂]; exact h) hi₂
      fun d' hd' => hv d' (List.mem_cons_of_mem _ hd')
    refine ⟨r', ht'.trans ht₂, by rw [hq', hq₂, hq₁, List.set_set], fun fuel hfuel => ?_⟩
    obtain ⟨fuel, rfl⟩ := Nat.exists_eq_succ_of_ne_zero (Nat.ne_zero_of_lt hfuel)
    rw [List.length_cons] at hfuel
    rw [Router.drain, hr, Option.bind_some]
    unfold AsyncNetworkInterface.maybeReceive
    simp only [hq]
    show (r₁.forward d).bind _ = _
    rw [hf, Option.bind_some]
    simp only [hd fuel (by omega), ht₂, Option.map_some]
    rw [List.filterMap_cons]
    show some (r', (outcome r.routeTable d).toList ++ _) = _
    cases outcome r.routeTable d <;> rfl

/-- From the `k`-th interface on, when those before it are empty. -/
theorem routeAll_eq : ∀ {qs : List (List IPv4Datagram)} {k : Nat} {r : Router},
    (∀ rec ∈ r.routeTable, WellFormed r.interfaces.length rec) →
    queues r = List.replicate k [] ++ qs → (∀ q ∈ qs, ∀ d ∈ q, d.header.ver = 4) →
    ∃ r', r'.routeTable = r.routeTable ∧ queues r' = List.replicate (k + qs.length) [] ∧
      ∀ fuel, (∀ q ∈ qs, q.length < fuel) →
        Router.routeAll fuel (List.range' k qs.length) r =
          some (r', qs.flatten.filterMap (outcome r.routeTable))
  | [], k, r, _, hq, _ => ⟨r, rfl, by rw [hq, List.append_nil]; rfl, fun _ _ => rfl⟩
  | q :: qs, k, r, h, hq, hv => by
    have hi : (queues r)[k]? = some q := by
      rw [hq, List.getElem?_append_right (by simp), List.length_replicate, Nat.sub_self]
      rfl
    obtain ⟨r₁, ht₁, hq₁, hd⟩ := drain_eq h hi (hv q List.mem_cons_self)
    have hset : queues r₁ = List.replicate (k + 1) [] ++ qs := by
      rw [hq₁, hq, List.set_append_right _ _ (by simp), List.length_replicate, Nat.sub_self,
        List.set_cons_zero, List.replicate_succ', List.append_assoc]
      rfl
    have hlen₁ : r₁.interfaces.length = r.interfaces.length := by
      rw [← queues_length, hq₁, List.length_set, queues_length]
    obtain ⟨r', ht', hq', hall⟩ := routeAll_eq (by rw [hlen₁, ht₁]; exact h) hset
      fun q' hq' => hv q' (List.mem_cons_of_mem _ hq')
    refine ⟨r', ht'.trans ht₁, ?_, fun fuel hfuel => ?_⟩
    · rw [hq', List.length_cons, Nat.add_right_comm, Nat.add_assoc]
    · rw [List.length_cons, List.range'_succ, Router.routeAll, hd fuel (hfuel q List.mem_cons_self),
        Option.bind_some]
      simp only [hall fuel fun q' hq' => hfuel q' (List.mem_cons_of_mem _ hq'), ht₁,
        Option.map_some, List.flatten_cons, List.filterMap_append]

/-! ## The interfaces -/

/-- The interfaces without what they have received. -/
def bases (r : Router) : List NetworkInterface := r.interfaces.map (·.base)

/-- One call of `send_datagram`. -/
def sendOn (bases : List NetworkInterface) (call : SendCall) : Option (List NetworkInterface) :=
  (bases[call.interfaceNum]?).bind fun base =>
    (base.sendDatagram call.dgram call.nextHop).map (bases.set call.interfaceNum)

theorem send_bases {r r' : Router} {call : SendCall} (h : r.send call = some r') :
    sendOn (bases r) call = some (bases r') := by
  obtain ⟨interface, hi, h⟩ := Option.bind_eq_some_iff.mp h
  obtain ⟨base, hb, rfl⟩ := Option.map_eq_some_iff.mp h
  unfold sendOn bases
  rw [List.getElem?_map, hi, Option.map_some, Option.bind_some, hb, Option.map_some, List.map_set]

theorem forward_bases {r r' : Router} {d : IPv4Datagram} {calls : List SendCall}
    (h : r.forward d = some (r', calls)) : calls.foldlM sendOn (bases r) = some (bases r') := by
  unfold Router.forward at h
  split_ifs at h
  · cases h; rfl
  · simp only at h
    split_ifs at h
    · cases h; rfl
    · obtain ⟨header, -, h⟩ := Option.bind_eq_some_iff.mp h
      obtain ⟨r₁, hs, h⟩ := Option.map_eq_some_iff.mp h
      cases h
      rw [List.foldlM_cons, send_bases hs]
      rfl

/-- Two lists of calls, one after the other. -/
theorem sendOn_append {calls calls' : List SendCall} {b b₁ b' : List NetworkInterface}
    (h : calls.foldlM sendOn b = some b₁) (h' : calls'.foldlM sendOn b₁ = some b') :
    (calls ++ calls').foldlM sendOn b = some b' := by
  rw [List.foldlM_append, h]
  exact h'

/-- Taking a datagram off a queue. -/
theorem bases_take {r : Router} {i : Nat} {interface : AsyncNetworkInterface}
    (hi : r.interfaces[i]? = some interface) {q : List IPv4Datagram} :
    bases { r with interfaces := r.interfaces.set i { base := interface.base, datagramsIn := q } } =
      bases r := by
  have hb : (bases r)[i]? = some interface.base := by
    unfold bases
    rw [List.getElem?_map, hi]
    rfl
  obtain ⟨hlt, he⟩ := List.getElem?_eq_some_iff.mp hb
  show (r.interfaces.set i _).map (·.base) = bases r
  rw [List.map_set]
  show (bases r).set i interface.base = bases r
  rw [← he]
  exact List.set_getElem_self hlt

theorem drain_bases {i fuel : Nat} {r r' : Router} {calls : List SendCall}
    (h : Router.drain i fuel r = some (r', calls)) :
    calls.foldlM sendOn (bases r) = some (bases r') := by
  induction fuel generalizing r calls with
  | zero => cases h
  | succ fuel ih =>
    rw [Router.drain] at h
    obtain ⟨interface, hi, h⟩ := Option.bind_eq_some_iff.mp h
    unfold AsyncNetworkInterface.maybeReceive at h
    cases hq : interface.datagramsIn with
    | nil =>
      rw [hq] at h
      cases h
      rfl
    | cons d q =>
      rw [hq] at h
      obtain ⟨⟨r₁, calls₁⟩, hf, h⟩ := Option.bind_eq_some_iff.mp h
      obtain ⟨⟨r₂, calls₂⟩, hd, he⟩ := Option.map_eq_some_iff.mp h
      cases he
      have h₁ := forward_bases hf
      rw [bases_take hi] at h₁
      exact sendOn_append h₁ (ih hd)

theorem routeAll_bases {fuel : Nat} {is : List Nat} {r r' : Router} {calls : List SendCall}
    (h : Router.routeAll fuel is r = some (r', calls)) :
    calls.foldlM sendOn (bases r) = some (bases r') := by
  induction is generalizing r calls with
  | nil =>
    cases h
    rfl
  | cons i is ih =>
    obtain ⟨⟨r₁, calls₁⟩, hd, h⟩ := Option.bind_eq_some_iff.mp h
    obtain ⟨⟨r₂, calls₂⟩, ha, he⟩ := Option.map_eq_some_iff.mp h
    cases he
    exact sendOn_append (drain_bases hd) (ih ha)

/-- What `route` does to the interfaces, besides emptying their queues. -/
theorem route_bases {fuel : Nat} {r r' : Router} {calls : List SendCall}
    (h : r.route fuel = some (r', calls)) : calls.foldlM sendOn (bases r) = some (bases r') :=
  routeAll_bases h

/-- **`route` forwards everything once, by the longest prefix.** From some
number of rounds on, the loops end with every queue empty, and the calls are
those for the received datagrams, interface by interface and in order: none
for a datagram that is dropped, one for any other; and the interfaces are left as
those calls, made in order, leave them. What IPv4 parsing accepts has version 4
(`IPv4Datagram.header_of_parse`). -/
theorem route_longest_match {r : Router}
    (htable : ∀ rec ∈ r.routeTable, WellFormed r.interfaces.length rec)
    (hreceived : ∀ i ∈ r.interfaces, ∀ d ∈ i.datagramsIn, d.header.ver = 4) :
    ∃ (r' : Router) (out : IPv4Datagram → Option SendCall),
      (∀ i ∈ r.interfaces, ∀ d ∈ i.datagramsIn, Forwarded r.routeTable d (out d)) ∧
      (∀ i ∈ r'.interfaces, i.datagramsIn = []) ∧
      r'.interfaces.length = r.interfaces.length ∧ r'.routeTable = r.routeTable ∧
      ((r.interfaces.flatMap (·.datagramsIn)).filterMap out).foldlM sendOn (bases r) =
        some (bases r') ∧
      ∃ rounds, ∀ fuel, rounds ≤ fuel → r.route fuel =
        some (r', (r.interfaces.flatMap (·.datagramsIn)).filterMap out) := by
  have hv : ∀ q ∈ queues r, ∀ d ∈ q, d.header.ver = 4 := by
    intro q hq
    obtain ⟨i, hi, rfl⟩ := List.mem_map.mp hq
    exact hreceived i hi
  have hsplit : queues r = List.replicate 0 [] ++ queues r := rfl
  obtain ⟨r', ht, hq, hall⟩ := routeAll_eq htable hsplit hv
  -- so many rounds are enough for each interface
  have hroute : ∀ fuel, ((queues r).map List.length).sum + 1 ≤ fuel → r.route fuel =
      some (r', (r.interfaces.flatMap (·.datagramsIn)).filterMap (outcome r.routeTable)) := by
    intro fuel hfuel
    have hlt : ∀ q ∈ queues r, q.length < fuel := fun q hq => by
      have := List.le_sum_of_mem (List.mem_map_of_mem (f := List.length) hq)
      omega
    have := hall fuel hlt
    rw [queues_length, ← List.range_eq_range'] at this
    exact this
  refine ⟨r', outcome r.routeTable, fun i hi d hd => outcome_forwarded htable (hreceived i hi d hd),
    fun i hi => ?_, ?_, ht, route_bases (hroute _ (Nat.le_refl _)), _, hroute⟩
  · have : i.datagramsIn ∈ queues r' := List.mem_map_of_mem hi
    rw [hq] at this
    exact List.eq_of_mem_replicate this
  · rw [← queues_length, hq, List.length_replicate, Nat.zero_add, queues_length]

/-- Two records cover the destination, the second with the longer prefix. -/
theorem route_longest_match_two :
    let d : IPv4Datagram := { header := { dst := 0x0a010203 } }
    let r : Router := ((({} : Router).addInterface { datagramsIn := [d] }).addInterface {}).addRoute
      0 0 (some ⟨9, 0⟩) 0 |>.addRoute 0x0a000000 8 none 1
    ∃ (r' : Router) (out : IPv4Datagram → Option SendCall),
      (∀ i ∈ r.interfaces, ∀ d ∈ i.datagramsIn, Forwarded r.routeTable d (out d)) ∧
      (∀ i ∈ r'.interfaces, i.datagramsIn = []) ∧
      r'.interfaces.length = r.interfaces.length ∧ r'.routeTable = r.routeTable ∧
      ((r.interfaces.flatMap (·.datagramsIn)).filterMap out).foldlM sendOn (bases r) =
        some (bases r') ∧
      ∃ rounds, ∀ fuel, rounds ≤ fuel → r.route fuel =
        some (r', (r.interfaces.flatMap (·.datagramsIn)).filterMap out) := by
  refine route_longest_match (fun rec hm => ?_) (fun i hi d hd => ?_)
  · rcases List.mem_cons.mp hm with rfl | hm
    · exact ⟨by decide, by decide, by decide, by decide⟩
    · rw [List.mem_singleton.mp hm]
      exact ⟨by decide, by decide, by decide, by decide⟩
  · rcases List.mem_cons.mp hi with rfl | hi
    · rw [List.mem_singleton.mp hd]
    · rw [List.mem_singleton.mp hi] at hd
      cases hd

end StreamSocket.L3.Routing
