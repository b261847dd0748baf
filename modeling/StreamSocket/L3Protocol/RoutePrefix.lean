import StreamSocket.L3Protocol.Routing

/-!
# Prefixes with bits behind their length

`route` masks the destination and compares it with the prefix as it was
given: a record whose prefix has bits behind its length applies to nothing,
though `add_route` asks only for its leading bits. Two tables that say the
same lead to the same calls as long as their records are clean in the same
places.

Results:
* `route_withTable`: the calls depend on the table through the search only.
* `sameCalls_of_clean`: records that are clean in the same places make no
  difference.
* `prefix_bits_ignored_iff`: the bits behind the length are ignored if there
  are none.
-/
namespace StreamSocket.L3.RoutePrefix

open L1 L2 Routing

/-- The two records differ at most in the bits behind the prefix length. -/
structure Alike (r s : RouteRecord) : Prop where
  length : r.prefixLength = s.prefixLength
  leading : r.routePrefix.toNat / 2 ^ r.tail = s.routePrefix.toNat / 2 ^ r.tail
  nextHop : r.nextHop = s.nextHop
  interfaceNum : r.interfaceNum = s.interfaceNum

/-- The calls that `route` makes, in any number of rounds. -/
def calls (fuel : Nat) (interfaces : List AsyncNetworkInterface) (table : List RouteRecord) :
    Option (List SendCall) :=
  (Router.route fuel { interfaces := interfaces, routeTable := table }).map Prod.snd

/-- Whatever has been received, both tables lead to the same calls. -/
def SameCalls (t₁ t₂ : List RouteRecord) : Prop :=
  ∀ fuel interfaces, calls fuel interfaces t₁ = calls fuel interfaces t₂

/-- Bits behind the length make no difference to any call, and a record applies
exactly where its leading bits agree. -/
def PrefixBitsIgnored (t₁ t₂ : List RouteRecord) : Prop :=
  SameCalls t₁ t₂ ∧ ∀ rec ∈ t₁ ++ t₂, ∀ dst, rec.applies dst ↔ Covers rec dst

/-- No bits behind the length. -/
def Clean (rec : RouteRecord) : Prop := rec.routePrefix.toNat % 2 ^ rec.tail = 0

/-! ## The table is only searched -/

/-- Two tables in which every search ends alike. -/
def SameSearch (t₁ t₂ : List RouteRecord) : Prop :=
  ∀ dst, Router.search t₁ dst = Router.search t₂ dst

def withTable (t : List RouteRecord) (r : Router) : Router := { r with routeTable := t }

theorem send_withTable (t : List RouteRecord) (r : Router) (call : SendCall) :
    (withTable t r).send call = (r.send call).map (withTable t) := by
  unfold Router.send
  show (r.interfaces[call.interfaceNum]?).bind _ = _
  cases r.interfaces[call.interfaceNum]? with
  | none => rfl
  | some interface =>
    simp only [Option.bind_some, Option.map_map]
    rfl

theorem send_table {r r' : Router} {call : SendCall} (h : r.send call = some r') :
    r'.routeTable = r.routeTable := by
  obtain ⟨interface, -, h⟩ := Option.bind_eq_some_iff.mp h
  obtain ⟨base, -, rfl⟩ := Option.map_eq_some_iff.mp h
  rfl

theorem forward_table {r r' : Router} {d : IPv4Datagram} {cs : List SendCall}
    (h : r.forward d = some (r', cs)) : r'.routeTable = r.routeTable := by
  unfold Router.forward at h
  split_ifs at h
  · cases h; rfl
  · simp only at h
    split_ifs at h
    · cases h; rfl
    · obtain ⟨header, -, h⟩ := Option.bind_eq_some_iff.mp h
      obtain ⟨r₁, hs, h⟩ := Option.map_eq_some_iff.mp h
      cases h
      exact send_table hs

/-- What `route` and its parts return, but for the table. -/
def swap (t : List RouteRecord) (x : Router × List SendCall) : Router × List SendCall :=
  (withTable t x.1, x.2)

theorem forward_withTable {t : List RouteRecord} {r : Router} (h : SameSearch r.routeTable t)
    (d : IPv4Datagram) : (withTable t r).forward d = (r.forward d).map (swap t) := by
  unfold Router.forward
  simp only [show (withTable t r).routeTable = t from rfl, ← h d.header.dst, send_withTable]
  split_ifs
  · rfl
  · rfl
  · rfl
  · rw [Option.map_bind]
    congr 1
    funext header
    simp only [Function.comp_apply, Option.map_map]
    rfl

theorem drain_table {i : Nat} {fuel : Nat} {r r' : Router} {cs : List SendCall}
    (h : Router.drain i fuel r = some (r', cs)) : r'.routeTable = r.routeTable := by
  induction fuel generalizing r cs with
  | zero => cases h
  | succ fuel ih =>
    rw [Router.drain] at h
    obtain ⟨interface, -, h⟩ := Option.bind_eq_some_iff.mp h
    cases hm : interface.maybeReceive with
    | mk dgram interface' =>
      rw [hm] at h
      cases dgram with
      | none => cases h; rfl
      | some d =>
        obtain ⟨x, hf, h⟩ := Option.bind_eq_some_iff.mp h
        obtain ⟨y, hd, h⟩ := Option.map_eq_some_iff.mp h
        cases h
        have hforward : x.1.routeTable = r.routeTable :=
          forward_table (r := { r with interfaces := r.interfaces.set i interface' }) hf
        exact (ih hd).trans hforward

theorem drain_withTable {t : List RouteRecord} (i fuel : Nat) {r : Router}
    (h : SameSearch r.routeTable t) :
    Router.drain i fuel (withTable t r) = (Router.drain i fuel r).map (swap t) := by
  induction fuel generalizing r with
  | zero => rfl
  | succ fuel ih =>
    rw [Router.drain, Router.drain]
    show (r.interfaces[i]?).bind _ = _
    cases r.interfaces[i]? with
    | none => rfl
    | some interface =>
      rw [Option.bind_some, Option.bind_some]
      cases interface.maybeReceive with
      | mk dgram interface' =>
        cases dgram with
        | none => rfl
        | some d =>
          let r₁ : Router := { r with interfaces := r.interfaces.set i interface' }
          have hf : (withTable t r₁).forward d = (r₁.forward d).map (swap t) :=
            forward_withTable (r := r₁) h d
          show ((withTable t r₁).forward d).bind _ = ((r₁.forward d).bind _).map _
          rw [hf]
          cases hr : r₁.forward d with
          | none => rfl
          | some x =>
            have ht : x.1.routeTable = r.routeTable := forward_table (r := r₁) hr
            have ih' := ih (r := x.1) (by rwa [ht])
            simp only [Option.map_some, Option.bind_some, swap, ih', Option.map_map]
            rfl

theorem routeAll_withTable {t : List RouteRecord} (fuel : Nat) (is : List Nat) {r : Router}
    (h : SameSearch r.routeTable t) :
    Router.routeAll fuel is (withTable t r) = (Router.routeAll fuel is r).map (swap t) := by
  induction is generalizing r with
  | nil => rfl
  | cons i is ih =>
    rw [Router.routeAll, Router.routeAll, drain_withTable i fuel h]
    cases hr : Router.drain i fuel r with
    | none => rfl
    | some x =>
      have ih' := ih (r := x.1) (by rwa [drain_table hr])
      simp only [Option.map_some, Option.bind_some, swap, ih', Option.map_map]
      rfl

theorem route_withTable {t : List RouteRecord} {r : Router} (h : SameSearch r.routeTable t)
    (fuel : Nat) : Router.route fuel (withTable t r) = (Router.route fuel r).map (swap t) :=
  routeAll_withTable fuel _ h

theorem sameCalls_of_sameSearch {t₁ t₂ : List RouteRecord} (h : SameSearch t₁ t₂) :
    SameCalls t₁ t₂ := by
  intro fuel interfaces
  have hr := route_withTable (r := { interfaces := interfaces, routeTable := t₁ }) h fuel
  unfold calls
  rw [show ({ interfaces := interfaces, routeTable := t₂ } : Router) =
    withTable t₂ { interfaces := interfaces, routeTable := t₁ } from rfl, hr, Option.map_map]
  rfl

/-! ## Clean records -/

theorem applies_iff_covers {rec : RouteRecord} (h : rec.prefixLength.toNat ≤ 32) :
    (∀ dst, rec.applies dst ↔ Covers rec dst) ↔ Clean rec := by
  constructor
  · intro hall
    exact ((RouteRecord.applies_iff h _).mp ((hall rec.routePrefix).mpr rfl)).2
  · intro hc dst
    unfold Clean at hc
    rw [RouteRecord.applies_iff h, and_iff_left hc]
    rfl

/-- Records that are clean alike apply alike. -/
theorem Alike.applies {r s : RouteRecord} (h : Alike r s) (hl : r.prefixLength.toNat ≤ 32)
    (hc : Clean r ↔ Clean s) (dst : UInt32) : r.applies dst = s.applies dst := by
  have htail : s.tail = r.tail := by
    unfold RouteRecord.tail
    rw [h.length]
  unfold Clean at hc
  rw [htail] at hc
  rw [Bool.eq_iff_iff, RouteRecord.applies_iff hl, RouteRecord.applies_iff (h.length ▸ hl), htail,
    h.leading, hc]

/-- The records are clean in the same places. -/
def CleanAlike (t₁ t₂ : List RouteRecord) : Prop :=
  List.Forall₂ (fun r s => Clean r ↔ Clean s) t₁ t₂

theorem sameSearch_of_clean {t₁ t₂ : List RouteRecord} (h : List.Forall₂ Alike t₁ t₂)
    (hc : CleanAlike t₁ t₂) (hl : ∀ rec ∈ t₁, rec.prefixLength.toNat ≤ 32) :
    SameSearch t₁ t₂ := by
  intro dst
  have hfold : ∀ best : Router.Search,
      t₁.foldl (Router.visit dst) best = t₂.foldl (Router.visit dst) best := by
    unfold CleanAlike at hc
    induction h with
    | nil => intro best; rfl
    | @cons r s t₁ t₂ hrs _ ih =>
      intro best
      obtain ⟨hrc, hc⟩ := List.forall₂_cons.mp hc
      have hv : Router.visit dst best r = Router.visit dst best s := by
        unfold Router.visit
        rw [hrs.applies (hl r List.mem_cons_self) hrc, hrs.length, hrs.nextHop, hrs.interfaceNum]
      rw [List.foldl_cons, List.foldl_cons, hv]
      exact ih hc (fun rec hm => hl rec (List.mem_cons_of_mem _ hm)) _
  exact hfold {}

/-- Tables whose records are clean in the same places lead to the same calls. -/
theorem sameCalls_of_clean {t₁ t₂ : List RouteRecord} (h : List.Forall₂ Alike t₁ t₂)
    (hc : CleanAlike t₁ t₂) (hl : ∀ rec ∈ t₁, rec.prefixLength.toNat ≤ 32) : SameCalls t₁ t₂ :=
  sameCalls_of_sameSearch (sameSearch_of_clean h hc hl)

theorem cleanAlike_of_clean {t₁ t₂ : List RouteRecord} (h : List.Forall₂ Alike t₁ t₂)
    (hc : ∀ rec ∈ t₁ ++ t₂, Clean rec) : CleanAlike t₁ t₂ := by
  induction h with
  | nil => exact .nil
  | @cons r s t₁ t₂ _ _ ih =>
    refine .cons (iff_of_true (hc r (by simp)) (hc s (by simp))) (ih fun rec hm => hc rec ?_)
    rcases List.mem_append.mp hm with hm | hm <;> simp [hm]

/-- The bits behind the length are ignored, in the calls and in what a record applies
to, exactly if there are none; for the calls alone it is enough that the records have
some in the same places. -/
theorem prefix_bits_ignored_iff {t₁ t₂ : List RouteRecord} (h : List.Forall₂ Alike t₁ t₂)
    (hl : ∀ rec ∈ t₁ ++ t₂, rec.prefixLength.toNat ≤ 32) :
    (PrefixBitsIgnored t₁ t₂ ↔ ∀ rec ∈ t₁ ++ t₂, Clean rec) ∧
      (CleanAlike t₁ t₂ → SameCalls t₁ t₂) := by
  have hl₁ : ∀ rec ∈ t₁, rec.prefixLength.toNat ≤ 32 := fun rec hm =>
    hl rec (List.mem_append_left _ hm)
  refine ⟨⟨?_, fun hc => ?_⟩, fun hc => sameCalls_of_clean h hc hl₁⟩
  · rintro ⟨-, happ⟩ rec hm
    exact (applies_iff_covers (hl rec hm)).mp (happ rec hm)
  · exact ⟨sameCalls_of_clean h (cleanAlike_of_clean h hc) hl₁,
      fun rec hm => (applies_iff_covers (hl rec hm)).mpr (hc rec hm)⟩

/-- Two tables with the clean 10.0.0.0/8, and with 10.1.0.1/16 or 10.1.0.2/16 behind it,
which apply to nothing. -/
theorem prefix_bits_ignored_clean :
    let rec₀ : RouteRecord := ⟨0x0a000000, 8, none, 0⟩
    let rec₁ : RouteRecord := ⟨0x0a010001, 16, none, 1⟩
    let rec₂ : RouteRecord := ⟨0x0a010002, 16, none, 1⟩
    SameCalls [rec₀, rec₁] [rec₀, rec₂] ∧ ¬ PrefixBitsIgnored [rec₀, rec₁] [rec₀, rec₂] := by
  intro rec₀ rec₁ rec₂
  have halike : List.Forall₂ Alike [rec₀, rec₁] [rec₀, rec₂] :=
    .cons ⟨rfl, rfl, rfl, rfl⟩ (.cons ⟨rfl, by decide, rfl, rfl⟩ .nil)
  have hlen : ∀ rec ∈ [rec₀, rec₁] ++ [rec₀, rec₂], rec.prefixLength.toNat ≤ 32 := by decide
  obtain ⟨hiff, hcalls⟩ := prefix_bits_ignored_iff halike hlen
  have hdirty : ∀ rec ∈ [rec₁, rec₂], ¬ Clean rec := by
    unfold Clean
    decide
  constructor
  · exact hcalls (.cons Iff.rfl (.cons
      (iff_of_false (hdirty rec₁ (by simp)) (hdirty rec₂ (by simp))) .nil))
  · intro hall
    exact hdirty rec₁ (by simp) (hiff.mp hall rec₁ (by simp))

/-- A datagram to 10.1.2.3 is sent by 10.0.0.0/8, and dropped with 10.0.0.1/8. -/
theorem prefix_bits_compared :
    let r : RouteRecord := ⟨0x0a000000, 8, none, 0⟩
    let s : RouteRecord := ⟨0x0a000001, 8, none, 0⟩
    Alike r s ∧ ¬ SameCalls [r] [s] := by
  intro r s
  refine ⟨⟨rfl, by decide, rfl, rfl⟩, fun h => ?_⟩
  have hcalls := h 2 [{ datagramsIn := [{ header := { dst := 0x0a010203 } }] }]
  have hlen := congrArg (Option.map List.length) hcalls
  revert hlen
  decide

end StreamSocket.L3.RoutePrefix
