import Fabric.Proofs.Undo
import Mathlib.Data.List.Basic
/-!
Release. A pip and the wire that it drives are released together, whichever of the two is freed. The
wires of a net may be freed in any order: each takes its driver with it, and every order ends in the
ledger without the net's routing (`Ledger.ripUp`). The induction is on the order; the net that is
left after a step lists exactly the wires to come.
-/

namespace Fabric

/-! ## Without some values -/

namespace SortedMap

variable {κ ν : Type} [Ord κ]

/-- The entries with a value that is kept. -/
def filterValues (m : SortedMap κ ν) (keep : ν → Bool) : SortedMap κ ν :=
  ⟨m.entries.filter fun e => keep e.2, m.sorted.filter _⟩

theorem get?_filterValues [Std.LawfulEqOrd κ] (m : SortedMap κ ν) (keep : ν → Bool) (k : κ) :
    (m.filterValues keep).get? k = (m.get? k).filter keep := by
  apply Option.ext
  intro v
  rw [← mem_entries_iff, Option.filter_eq_some_iff, ← mem_entries_iff]
  exact List.mem_filter

variable [Std.TransOrd κ] [Std.LawfulEqOrd κ] {m : SortedMap κ ν} (keep : ν → Bool)

theorem filterValues_eq_self (h : ∀ k v, m.get? k = some v → keep v = true) :
    m.filterValues keep = m := by
  apply ext
  intro k
  rw [get?_filterValues]
  cases hv : m.get? k with
  | none => rfl
  | some v => exact Option.filter_some_pos (h k v hv)

theorem filterValues_erase [DecidableEq κ] {k : κ} {v : ν} (h : m.get? k = some v)
    (drop : keep v = false) : (m.erase k).filterValues keep = m.filterValues keep := by
  apply ext
  intro k'
  rw [get?_filterValues, get?_filterValues, get?_erase]
  split
  next e =>
    rw [e, h, Option.filter_some_neg drop]
    rfl
  · rfl

end SortedMap

/-! ## A net without routing -/

/-- The owners, with nothing owned by the net. -/
def Owners.without (o : Owners) (n : NetRef) : Owners :=
  { o with ofWire := o.ofWire.filterValues (· ≠ n), ofPip := o.ofPip.filterValues (· ≠ n) }

/-- What is logged when a wire of the net is freed. -/
def Net.releases (x : Net) (w : Wire) : List Change :=
  .wire w :: ((x.driver? w).map Change.pip).toList

namespace Ledger

variable {l : Ledger} {n : NetRef} {x : Net} {w : Wire}

/-- The ledger in which the net `x`, whose handle is `n`, has no wires and no pips. -/
def ripUp (l : Ledger) (n : NetRef) (x : Net) : Ledger :=
  ⟨l.owners.without n, l.netlist.setNet n { x with wires := ∅ }⟩

/-- The second ledger is the first without the routing of a net. -/
structure RippedUp (l : Ledger) (n : NetRef) (l' : Ledger) : Prop where
  unrouted : ∃ x, l'.netlist.net? n = some x ∧ x.isUnrouted = true
  wire : ∀ w m, l'.owners.wire? w = some m ↔ m ≠ n ∧ l.owners.wire? w = some m
  pip : ∀ p m, l'.owners.pip? p = some m ↔ m ≠ n ∧ l.owners.pip? p = some m
  net : ∀ m, m ≠ n → l'.netlist.net? m = l.netlist.net? m
  site : ∀ s, l'.owners.site? s = l.owners.site? s
  cells : l'.netlist.cells = l.netlist.cells

theorem rippedUp_ripUp (net : l.netlist.net? n = some x) : l.RippedUp n (l.ripUp n x) where
  unrouted := ⟨{ x with wires := ∅ }, Netlist.net?_setNet_self net rfl, rfl⟩
  wire w m := by
    refine (Option.ext_iff.mp (SortedMap.get?_filterValues l.owners.ofWire _ w) m).trans ?_
    simp [Option.filter_eq_some_iff, Owners.wire?, and_comm]
  pip p m := by
    refine (Option.ext_iff.mp (SortedMap.get?_filterValues l.owners.ofPip _ p) m).trans ?_
    simp [Option.filter_eq_some_iff, Owners.pip?, and_comm]
  net m hm := (Netlist.net?_setNet net _ m).trans (if_neg hm)
  site _ := rfl
  cells := rfl

/-- A net that lists no wire has nothing to rip up. -/
theorem Consistent.ripUp_of_unrouted {β : Type} [BucketKey β] {d : Device β} (h : l.Consistent d)
    (net : l.netlist.net? n = some x) (nothing : x.wires = ∅) : l.ripUp n x = l := by
  have unused : ∀ w, l.netlist.use? n w = none := by
    intro w
    rw [Netlist.use?_of_net? net, nothing]
    rfl
  have wires : l.owners.ofWire.filterValues (· ≠ n) = l.owners.ofWire := by
    apply SortedMap.filterValues_eq_self
    intro w m owned
    apply decide_eq_true
    rintro rfl
    obtain ⟨u, hu⟩ := (h.wire w m).mp owned
    cases (unused w).symm.trans hu
  have pips : l.owners.ofPip.filterValues (· ≠ n) = l.owners.ofPip := by
    apply SortedMap.filterValues_eq_self
    intro p m owned
    apply decide_eq_true
    rintro rfl
    obtain ⟨w, _, hd⟩ := (h.pip p m).mp owned
    obtain ⟨u, hu, _⟩ := Netlist.driver?_eq_some.mp hd
    cases (unused w).symm.trans hu
  rw [ripUp, Owners.without, wires, pips, ← nothing, Netlist.setNet_of_net? net]

/-- A wire that the net gives up beforehand makes no difference. -/
theorem ripUp_release {driver : Option Pip} (owned : l.owners.wire? w = some n)
    (bound : ∀ p, driver = some p → l.owners.pip? p = some n) (x : Net) :
    (l.release n x w driver).ripUp n { x with wires := x.wires.erase w } = l.ripUp n x := by
  have wires := SortedMap.filterValues_erase (· ≠ n) owned (by simp)
  cases driver with
  | none =>
    simp only [release, ripUp, Owners.without, dropWire, freeWire, wires, Netlist.setNet_setNet]
  | some p =>
    have pips := SortedMap.filterValues_erase (· ≠ n) (bound p rfl) (by simp)
    simp only [release, ripUp, Owners.without, dropWire, freeWire, freePip, wires, pips,
      Netlist.setNet_setNet]

/-- A wire that belongs to no net: it is free, no net lists it, and no pip that drives it is
bound. -/
structure Unbound {β : Type} [BucketKey β] (d : Device β) (l : Ledger) (w : Wire) : Prop where
  free : l.owners.wire? w = none
  unlisted : ∀ x ∈ l.netlist.nets, x.wires.get? w = none
  undriven : ∀ p, d.target p = .ok w → l.owners.pip? p = none

theorem Consistent.unbound {β : Type} [BucketKey β] {d : Device β} (h : l.Consistent d)
    (tail : l.netlist.TailBlank) (free : l.owners.wire? w = none) : l.Unbound d w := by
  have unused : ∀ n, l.netlist.use? n w = none := by
    intro n
    apply h.use?_eq_none
    rw [free]
    exact nofun
  refine ⟨free, ?_, ?_⟩
  · intro x hx
    obtain ⟨i, hi⟩ := List.mem_iff_getElem?.mp hx
    cases listed : x.wires.get? w with
    | none => rfl
    | some u =>
      obtain ⟨_, net⟩ := tail.net?_ofIndex hi listed
      cases (unused _).symm.trans ((Netlist.use?_of_net? net w).trans listed)
  · intro p target
    cases owned : l.owners.pip? p with
    | none => rfl
    | some n =>
      obtain ⟨u, hu, _⟩ := Netlist.driver?_eq_some.mp (h.driver?_of_pip? target owned)
      cases (unused n).symm.trans hu

end Ledger

namespace Flow

variable {β : Type} [BucketKey β] {d : Device β} {f : Flow β}

theorem moved_moved (f : Flow β) (l l' : Ledger) (changes changes' : List Change) :
    (f.moved l changes).moved l' changes' = f.moved l' (changes ++ changes') := by
  obtain ⟨⟨device, types, partition, owners, log⟩, netlist⟩ := f
  cases log <;> simp [moved]

theorem Reachable.moved (h : Reachable d f) {o : Operation} {reply : Reply}
    {changes : List Change} {l : Ledger} (he : f.perform o = .accept (f.moved l changes) reply) :
    Reachable d (f.moved l changes) := by
  have next := h.step o
  rwa [he] at next

/-- A net gives up a wire of its own together with the driver. -/
theorem Reachable.perform_unbindWire (h : Reachable d f) {n : NetRef} {x : Net} {w : Wire}
    (net : f.netlist.net? n = some x) (owned : f.layout.owners.wire? w = some n) :
    f.perform (.unbindWire w) =
      .accept (f.moved (f.ledger.release n x w (x.driver? w)) (x.releases w)) (.net n) := by
  obtain ⟨y, u, can⟩ := h.canUnbindWire owned
  cases net.symm.trans can.net
  have driver : x.driver? w = u.driver := by
    rw [Net.driver?, can.listed]
    rfl
  rw [Net.releases, driver]
  exact perform_of_effect (.unbindWire can)

/-! ## A driven wire -/

/-- In a reachable flow a bound pip may be freed, or the wire that it drives: both are carried out
and answer the net of the pip, both lead to one ledger, in which the wire belongs to no net, and
both log the wire and the pip, in either order. -/
theorem Reachable.releases_agree (h : Reachable d f) {p : Pip} {n : NetRef}
    (owned : f.layout.owners.pip? p = some n) : ∃ w l, d.target p = .ok w ∧
      f.perform (.unbindPip p) = .accept (f.moved l [.pip p, .wire w]) (.net n) ∧
      f.perform (.unbindWire w) = .accept (f.moved l [.wire w, .pip p]) (.net n) ∧
      l.Unbound d w := by
  obtain ⟨w, x, target, can⟩ := h.canUnbindPip owned
  have driver : x.driver? w = some p := by
    rw [← Netlist.driver?_of_net? can.net]
    exact h.consistent.driver?_of_pip? target owned
  have pip := h.perform_eq (.unbindPip target can)
  have wire := h.perform_unbindWire can.net can.target_owned
  rw [Net.releases, driver] at wire
  have after := h.moved pip
  refine ⟨w, _, target, pip, wire, after.consistent.unbound after.built.tail ?_⟩
  rw [ledger_moved, Ledger.wire?_release, if_pos rfl]

/-- The sample chip with two nets: the first has the driven wire and another one. -/
def shared : Flow Symbol :=
  sample.run [.addNet ⟨2⟩, .addNet ⟨3⟩, .bindWire ⟨0⟩ ⟨1⟩ .user, .bindPip ⟨0⟩ ⟨0⟩ .weak,
    .bindWire ⟨2⟩ ⟨0⟩ .strong]

theorem releases_agree_shared :
    Reachable Chip.sample.chip.device shared ∧ shared.layout.owners.pip? ⟨0⟩ = some ⟨0⟩ ∧
    ∃ w l, Chip.sample.chip.device.target ⟨0⟩ = .ok w ∧
      shared.perform (.unbindPip ⟨0⟩) = .accept (shared.moved l [.pip ⟨0⟩, .wire w]) (.net ⟨0⟩) ∧
      shared.perform (.unbindWire w) = .accept (shared.moved l [.wire w, .pip ⟨0⟩]) (.net ⟨0⟩) ∧
      l.Unbound Chip.sample.chip.device w :=
  ⟨sample_reachable _, rfl, (sample_reachable _).releases_agree rfl⟩

/-! ## All wires of a net -/

/-- Every order of its wires takes a net to the same ledger. -/
theorem Reachable.run_unbindWires (h : Reachable d f) {n : NetRef} {x : Net}
    (net : f.netlist.net? n = some x) {ws : List Wire} (order : ws.Perm x.wires.keys) :
    f.answers (ws.map .unbindWire) = ws.map (fun _ => .ok (.net n)) ∧
    f.run (ws.map .unbindWire) = f.moved (f.ledger.ripUp n x) (ws.flatMap x.releases) := by
  induction ws generalizing f x with
  | nil =>
    have nothing : x.wires = ∅ := SortedMap.eq_empty_of_keys order.nil_eq.symm
    refine ⟨rfl, ?_⟩
    rw [h.consistent.ripUp_of_unrouted net nothing]
    exact f.moved_ledger.symm
  | cons w ws ih =>
    obtain ⟨u, listed⟩ :=
      (x.wires.mem_keys_iff_get? w).mp (order.subset List.mem_cons_self)
    have use : f.netlist.use? n w = some u := (Netlist.use?_of_net? net w).trans listed
    have owned : f.layout.owners.wire? w = some n := (h.consistent.wire w n).mpr ⟨u, use⟩
    have step := h.perform_unbindWire net owned
    -- The net that is left lists the wires that are still to come, with their drivers.
    have rest : ws.Perm (x.wires.erase w).keys :=
      (order.trans (SortedMap.keys_perm_erase listed)).cons_inv
    have distinct : (w :: ws).Nodup := order.nodup_iff.mpr x.wires.nodup_keys
    have releases : ws.flatMap { x with wires := x.wires.erase w }.releases =
        ws.flatMap x.releases := by
      apply List.flatMap_congr
      intro v hv
      have other : v ≠ w := fun e => (List.nodup_cons.mp distinct).1 (e ▸ hv)
      simp only [Net.releases, Net.driver?, SortedMap.get?_erase, if_neg other]
    have bound : ∀ p, x.driver? w = some p → f.layout.owners.pip? p = some n := by
      intro p hp
      exact (h.consistent.recorded_bound ((Netlist.driver?_of_net? net w).trans hp)).2
    obtain ⟨answers, run⟩ := ih (h.moved step) (Ledger.net?_release net _) rest
    rw [ledger_moved, Ledger.ripUp_release owned bound, releases, moved_moved] at run
    rw [List.map_cons, Flow.answers, Flow.run, step]
    exact ⟨congrArg _ answers, run⟩

/-- The wires of a net in a reachable flow are freed in any order. Each is carried out and answers
the net. In the end the net is unrouted, owns neither wires nor pips, and everything else is as it
was; the ledger is the same for every order, and the log has for each wire, in its turn, the wire
and its driver. -/
theorem Reachable.rips_up (h : Reachable d f) {n : NetRef} {x : Net}
    (net : f.netlist.net? n = some x) {ws : List Wire} (order : ws.Perm x.wires.keys) :
    f.answers (ws.map .unbindWire) = ws.map (fun _ => .ok (.net n)) ∧
    f.run (ws.map .unbindWire) = f.moved (f.ledger.ripUp n x) (ws.flatMap x.releases) ∧
    f.ledger.RippedUp n (f.run (ws.map .unbindWire)).ledger := by
  obtain ⟨answers, run⟩ := h.run_unbindWires net order
  refine ⟨answers, run, ?_⟩
  rw [run, ledger_moved]
  exact Ledger.rippedUp_ripUp net

/-- On the sample chip: the last wire first, and the driven one after it. -/
theorem rips_up_shared :
    Reachable Chip.sample.chip.device shared ∧
    ∃ x, shared.netlist.net? ⟨0⟩ = some x ∧ [⟨2⟩, ⟨1⟩].Perm x.wires.keys ∧
      shared.answers [.unbindWire ⟨2⟩, .unbindWire ⟨1⟩] = [.ok (.net ⟨0⟩), .ok (.net ⟨0⟩)] ∧
      shared.ledger.RippedUp ⟨0⟩ (shared.run [.unbindWire ⟨2⟩, .unbindWire ⟨1⟩]).ledger := by
  have h : Reachable Chip.sample.chip.device shared := sample_reachable _
  obtain ⟨x, net, order⟩ :
      ∃ x, shared.netlist.net? ⟨0⟩ = some x ∧ [⟨2⟩, ⟨1⟩].Perm x.wires.keys :=
    ⟨_, rfl, by decide⟩
  obtain ⟨answers, _, ledger⟩ := h.rips_up net order
  exact ⟨h, x, net, order, answers, ledger⟩

end Flow

end Fabric
