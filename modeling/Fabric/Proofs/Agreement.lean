import Fabric.Proofs.Effect
/-!
Agreement of owners, netlist and device, as audits decide it. Each loop of an audit checks one
direction of one relation; together they amount to `Flow.Agrees` (`Flow.audit_eq_ok_iff`). What no
loop checks is that a net lists the driver of a wire only at the wire that the pip drives.
-/

namespace Fabric

variable {β : Type} [BucketKey β]

namespace Flow

/-- What a passed audit says. -/
structure Agrees (f : Flow β) : Prop where
  site : ∀ s c, f.layout.owners.site? s = some c ↔ f.netlist.siteOf? c = some s
  wire : ∀ w n, f.layout.owners.wire? w = some n ↔ ∃ u, f.netlist.use? n w = some u
  driver : ∀ n w p, f.netlist.driver? n w = some p → f.layout.owners.pip? p = some n
  siteInside : ∀ s c, f.layout.owners.site? s = some c → f.layout.device.hasSite s = true
  wireInside : ∀ w n, f.layout.owners.wire? w = some n → f.layout.device.hasWire w = true
  pip : ∀ p n, f.layout.owners.pip? p = some n → ∃ w, f.layout.device.target p = .ok w ∧
    f.layout.owners.wire? w = some n ∧ f.netlist.driver? n w = some p

end Flow

/-! ## The loops of an audit -/

theorem checkAll_walk_iff {κ ν ε : Type} [Ord κ] [Std.LawfulEqOrd κ] {m : SortedMap κ ν}
    {check : κ × ν → Except ε Unit} {walk : List (κ × ν)} (perm : walk.Perm m.entries) :
    checkAll check walk = .ok () ↔ ∀ k v, m.get? k = some v → check (k, v) = .ok () := by
  rw [checkAll_eq_ok_iff]
  constructor
  · intro h k v hv
    exact h (k, v) (perm.mem_iff.mpr ((m.mem_entries_iff k v).mpr hv))
  · intro h e he
    exact h e.1 e.2 ((m.mem_entries_iff e.1 e.2).mp (perm.mem_iff.mp he))

/-- The entries of a table are those that handles name, where the rest of it does not matter. -/
theorem checkAll_table_iff {k : Kind} {α ε : Type} {table : List α} {check : α → Except ε Unit}
    (blank : ∀ i a, table[i]? = some a → UInt32.size ≤ i → check a = .ok ()) :
    checkAll check table = .ok () ↔
      ∀ (h : Handle k) a, table[h.index]? = some a → check a = .ok () := by
  rw [checkAll_eq_ok_iff]
  constructor
  · intro hc h a ha
    exact hc a (List.mem_of_getElem? ha)
  · intro hc a ha
    obtain ⟨i, hi⟩ := List.mem_iff_getElem?.mp ha
    by_cases hlt : i < UInt32.size
    · exact hc (.ofIndex i) a (by rwa [Handle.index_ofIndex hlt])
    · exact blank i a hi (Nat.le_of_not_lt hlt)

namespace Ledger

variable {l : Ledger}

theorem auditSite_eq_ok_iff {s : Site} {c : CellRef} :
    l.auditSite (s, c) = .ok () ↔ l.netlist.siteOf? c = some s := by
  unfold auditSite
  cases hx : l.netlist.cell? c with
  | none => simp [Netlist.cell, Netlist.siteOf?, hx]
  | some x => simp [Netlist.cell, Netlist.siteOf?, hx]

theorem auditCell_eq_ok_iff {x : Cell} :
    l.auditCell x = .ok () ↔ ∀ s, x.site = some s → l.owners.site? s = some x.id := by
  unfold auditCell
  cases hs : x.site with
  | none => simp
  | some s => simp

theorem auditWire_eq_ok_iff {w : Wire} {n : NetRef} :
    l.auditWire (w, n) = .ok () ↔ ∃ u, l.netlist.use? n w = some u := by
  unfold auditWire
  cases hx : l.netlist.net? n with
  | none => simp [Netlist.net, Netlist.use?, hx]
  | some x => simp [Netlist.net, Netlist.use?, hx, SortedMap.contains_iff]

theorem auditUse_eq_ok_iff {n : NetRef} {w : Wire} {u : WireUse} :
    l.auditUse n (w, u) = .ok () ↔
      l.owners.wire? w = some n ∧ ∀ p, u.driver = some p → l.owners.pip? p = some n := by
  unfold auditUse
  by_cases hw : l.owners.wire? w = some n
  · cases hd : u.driver with
    | none => simp [hw]
    | some p => simp [hw]
  · simp [hw]

theorem auditNet_eq_ok_iff {o : l.owners.Walk} {x : Net} : l.auditNet o x = .ok () ↔
    ∀ w u, x.wires.get? w = some u →
      l.owners.wire? w = some x.id ∧ ∀ p, u.driver = some p → l.owners.pip? p = some x.id := by
  simp only [auditNet, checkAll_walk_iff (o.uses_perm x), auditUse_eq_ok_iff]

theorem checkCells_eq_ok_iff (tail : l.netlist.TailBlank) :
    checkAll l.auditCell l.netlist.cells = .ok () ↔
      ∀ c s, l.netlist.siteOf? c = some s → l.owners.site? s = some c := by
  refine (checkAll_table_iff (k := .cell) ?_).trans ?_
  · intro i x hx hi
    rw [auditCell_eq_ok_iff, tail.cells i x hx hi]
    rintro s ⟨⟩
  · simp only [auditCell_eq_ok_iff]
    constructor
    · intro h c s hs
      obtain ⟨x, hx, hs⟩ := Netlist.siteOf?_eq_some.mp hs
      exact Netlist.id_of_cell? hx ▸ h c x hx s hs
    · intro h c x hx s hs
      rw [l.netlist.cell_ids.id_eq hx]
      exact h c s (Netlist.siteOf?_eq_some.mpr ⟨x, hx, hs⟩)

theorem checkNets_eq_ok_iff (tail : l.netlist.TailBlank) (o : l.owners.Walk) :
    checkAll (l.auditNet o) l.netlist.nets = .ok () ↔
      (∀ n w u, l.netlist.use? n w = some u → l.owners.wire? w = some n) ∧
      ∀ n w p, l.netlist.driver? n w = some p → l.owners.pip? p = some n := by
  refine (checkAll_table_iff (k := .net) ?_).trans ?_
  · intro i x hx hi
    rw [auditNet_eq_ok_iff, tail.nets i x hx hi]
    rintro w u ⟨⟩
  · simp only [auditNet_eq_ok_iff]
    constructor
    · intro h
      refine ⟨?_, ?_⟩
      · intro n w u hu
        obtain ⟨x, hx, hu⟩ := Netlist.use?_eq_some.mp hu
        exact Netlist.id_of_net? hx ▸ (h n x hx w u hu).1
      · intro n w p hp
        obtain ⟨u, hu, hp⟩ := Netlist.driver?_eq_some.mp hp
        obtain ⟨x, hx, hu⟩ := Netlist.use?_eq_some.mp hu
        exact Netlist.id_of_net? hx ▸ (h n x hx w u hu).2 p hp
    · rintro ⟨owned, driver⟩ n x hx w u hu
      rw [l.netlist.net_ids.id_eq hx]
      have hu : l.netlist.use? n w = some u := Netlist.use?_eq_some.mpr ⟨x, hx, hu⟩
      exact ⟨owned n w u hu, fun p hp => driver n w p (Netlist.driver?_eq_some.mpr ⟨u, hu, hp⟩)⟩

/-- The audit of a ledger checks sites both ways, wires both ways, and recorded drivers, whatever
the order. -/
theorem auditAlong_eq_ok_iff (tail : l.netlist.TailBlank) (o : l.owners.Walk) :
    l.auditAlong o = .ok () ↔
    (∀ s c, l.owners.site? s = some c ↔ l.netlist.siteOf? c = some s) ∧
    (∀ w n, l.owners.wire? w = some n ↔ ∃ u, l.netlist.use? n w = some u) ∧
    ∀ n w p, l.netlist.driver? n w = some p → l.owners.pip? p = some n := by
  simp only [auditAlong, bind_eq_ok_iff, checkAll_walk_iff o.sites_perm,
    checkAll_walk_iff o.wires_perm, auditSite_eq_ok_iff, auditWire_eq_ok_iff,
    checkCells_eq_ok_iff tail, checkNets_eq_ok_iff tail]
  constructor
  · rintro ⟨site, cell, wire, net, driver⟩
    exact ⟨fun s c => ⟨site s c, cell c s⟩, fun w n => ⟨wire w n, fun ⟨u, hu⟩ => net n w u hu⟩,
      driver⟩
  · rintro ⟨site, wire, driver⟩
    exact ⟨fun s c => (site s c).mp, fun c s => (site s c).mpr, fun w n => (wire w n).mp,
      fun n w u hu => (wire w n).mpr ⟨u, hu⟩, driver⟩

theorem audit_eq_ok_iff (tail : l.netlist.TailBlank) : l.audit = .ok () ↔
    (∀ s c, l.owners.site? s = some c ↔ l.netlist.siteOf? c = some s) ∧
    (∀ w n, l.owners.wire? w = some n ↔ ∃ u, l.netlist.use? n w = some u) ∧
    ∀ n w p, l.netlist.driver? n w = some p → l.owners.pip? p = some n :=
  auditAlong_eq_ok_iff tail _

end Ledger

namespace Flow

variable {f : Flow β}

theorem auditSiteInside_eq_ok_iff {s : Site} {c : CellRef} :
    f.auditSiteInside (s, c) = .ok () ↔ f.layout.device.hasSite s = true := by
  cases h : f.layout.device.hasSite s <;> simp [auditSiteInside, h]

theorem auditWireInside_eq_ok_iff {w : Wire} {n : NetRef} :
    f.auditWireInside (w, n) = .ok () ↔ f.layout.device.hasWire w = true := by
  cases h : f.layout.device.hasWire w <;> simp [auditWireInside, h]

theorem auditPip_eq_ok_iff {p : Pip} {n : NetRef} : f.auditPip (p, n) = .ok () ↔
    ∃ w, f.layout.device.target p = .ok w ∧ f.layout.owners.wire? w = some n ∧
      f.netlist.driver? n w = some p := by
  unfold auditPip
  cases ht : f.layout.device.target p with
  | error r => simp
  | ok w =>
    by_cases hw : f.layout.owners.wire? w = some n
    · cases hx : f.netlist.net? n with
      | none => simp [hw, Netlist.net, Netlist.driver?, Netlist.use?, hx]
      | some x => simp [hw, Netlist.net, hx, Netlist.driver?_of_net? hx]
    · simp [hw]

/-- An audit passes exactly when owners, netlist and device agree, whatever the order. -/
theorem auditAlong_eq_ok_iff (tail : f.netlist.TailBlank) (o : f.layout.owners.Walk) :
    f.auditAlong o = .ok () ↔ f.Agrees := by
  simp only [auditAlong, bind_eq_ok_iff, f.ledger.auditAlong_eq_ok_iff tail o,
    checkAll_walk_iff o.sites_perm, checkAll_walk_iff o.wires_perm, checkAll_walk_iff o.pips_perm,
    auditSiteInside_eq_ok_iff, auditWireInside_eq_ok_iff, auditPip_eq_ok_iff]
  constructor
  · rintro ⟨⟨site, wire, driver⟩, siteInside, wireInside, pip⟩
    exact ⟨site, wire, driver, siteInside, wireInside, pip⟩
  · intro h
    exact ⟨⟨h.site, h.wire, h.driver⟩, h.siteInside, h.wireInside, h.pip⟩

theorem audit_eq_ok_iff (tail : f.netlist.TailBlank) : f.audit = .ok () ↔ f.Agrees :=
  auditAlong_eq_ok_iff tail _

end Flow

end Fabric
