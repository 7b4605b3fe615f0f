import Fabric.Ledger.Basic
import Fabric.Proofs.Netlist
/-!
The six operations come down to four moves of the ledger: a site takes a cell or gives it up, and a
net takes a wire or gives it up, with or without a driver. Beside each move stands what it does to
the owners and to what one can look up in the netlist.
-/

namespace Fabric.Ledger

/-! ## Moves -/

/-- Puts the cell `x`, whose handle is `c`, on a site. -/
def place (l : Ledger) (s : Site) (c : CellRef) (x : Cell) (strength : Strength) : Ledger :=
  (l.setCell c { x with site := some s, strength }).setSite s c

/-- Takes the cell `x`, whose handle is `c`, off its site. -/
def vacate (l : Ledger) (s : Site) (c : CellRef) (x : Cell) : Ledger :=
  (l.freeSite s).setCell c { x with site := none, strength := .none }

/-- Gives a wire to the net `x`, whose handle is `n`, with the driver of its use. -/
def take (l : Ledger) (n : NetRef) (x : Net) (w : Wire) (u : WireUse) : Ledger :=
  match u.driver with
  | none => (l.useWire n x w u).setWire w n
  | some p => ((l.useWire n x w u).setWire w n).setPip p n

/-- Takes a wire from the net `x`, whose handle is `n`, with its driver. -/
def release (l : Ledger) (n : NetRef) (x : Net) (w : Wire) (driver : Option Pip) : Ledger :=
  match driver with
  | none => (l.dropWire n x w).freeWire w
  | some p => ((l.dropWire n x w).freeWire w).freePip p

section
variable (l : Ledger) {s : Site} {c : CellRef} {n : NetRef} {w : Wire}

@[simp] theorem site?_place (x : Cell) (strength : Strength) (s' : Site) :
    (l.place s c x strength).owners.site? s' =
      if s' = s then some c else l.owners.site? s' :=
  SortedMap.get?_insert l.owners.ofSite s s' c

@[simp] theorem wire?_place (x : Cell) (strength : Strength) (w : Wire) :
    (l.place s c x strength).owners.wire? w = l.owners.wire? w := rfl

@[simp] theorem pip?_place (x : Cell) (strength : Strength) (p : Pip) :
    (l.place s c x strength).owners.pip? p = l.owners.pip? p := rfl

@[simp] theorem use?_place (x : Cell) (strength : Strength) (n : NetRef) (w : Wire) :
    (l.place s c x strength).netlist.use? n w = l.netlist.use? n w := rfl

theorem siteOf?_place {y : Cell} (h : l.netlist.cell? c = some y) (x : Cell) (strength : Strength)
    (c' : CellRef) : (l.place s c x strength).netlist.siteOf? c' =
      if c' = c then some s else l.netlist.siteOf? c' :=
  Netlist.siteOf?_setCell h _ c'

@[simp] theorem site?_freeSite (s' : Site) :
    (l.freeSite s).owners.site? s' = if s' = s then none else l.owners.site? s' :=
  SortedMap.get?_erase l.owners.ofSite s s'

@[simp] theorem wire?_freeWire (w' : Wire) :
    (l.freeWire w).owners.wire? w' = if w' = w then none else l.owners.wire? w' :=
  SortedMap.get?_erase l.owners.ofWire w w'

@[simp] theorem site?_vacate (x : Cell) (s' : Site) :
    (l.vacate s c x).owners.site? s' = if s' = s then none else l.owners.site? s' :=
  l.site?_freeSite s'

@[simp] theorem wire?_vacate (x : Cell) (w : Wire) :
    (l.vacate s c x).owners.wire? w = l.owners.wire? w := rfl

@[simp] theorem pip?_vacate (x : Cell) (p : Pip) :
    (l.vacate s c x).owners.pip? p = l.owners.pip? p := rfl

@[simp] theorem use?_vacate (x : Cell) (n : NetRef) (w : Wire) :
    (l.vacate s c x).netlist.use? n w = l.netlist.use? n w := rfl

theorem siteOf?_vacate {y : Cell} (h : l.netlist.cell? c = some y) (x : Cell) (c' : CellRef) :
    (l.vacate s c x).netlist.siteOf? c' = if c' = c then none else l.netlist.siteOf? c' :=
  Netlist.siteOf?_setCell h _ c'

@[simp] theorem site?_take (x : Net) (u : WireUse) (s : Site) :
    (l.take n x w u).owners.site? s = l.owners.site? s := by
  unfold take
  split <;> rfl

theorem netlist_take (x : Net) (u : WireUse) : (l.take n x w u).netlist =
    l.netlist.setNet n { x with wires := x.wires.insert w u } := by
  unfold take
  split <;> rfl

@[simp] theorem wire?_take (x : Net) (u : WireUse) (w' : Wire) :
    (l.take n x w u).owners.wire? w' = if w' = w then some n else l.owners.wire? w' := by
  have h := SortedMap.get?_insert l.owners.ofWire w w' n
  unfold take
  split <;> exact h

@[simp] theorem pip?_take (x : Net) (u : WireUse) (p : Pip) :
    (l.take n x w u).owners.pip? p = if u.driver = some p then some n else l.owners.pip? p := by
  unfold take
  split
  next h => simp [h, useWire, setWire, Owners.pip?]
  next q h =>
    rw [h]
    refine (SortedMap.get?_insert l.owners.ofPip q p n).trans ?_
    by_cases e : p = q
    · simp [e]
    · simp [e, Ne.symm e, Owners.pip?]

@[simp] theorem siteOf?_take (x : Net) (u : WireUse) (c : CellRef) :
    (l.take n x w u).netlist.siteOf? c = l.netlist.siteOf? c := by
  rw [netlist_take, Netlist.siteOf?_setNet]

theorem use?_take {x : Net} (h : l.netlist.net? n = some x) (u : WireUse) (n' : NetRef)
    (w' : Wire) : (l.take n x w u).netlist.use? n' w' =
      if n' = n ∧ w' = w then some u else l.netlist.use? n' w' := by
  rw [netlist_take, Netlist.use?_setNet h]
  by_cases e : n' = n
  · subst e
    simp [SortedMap.get?_insert, Netlist.use?_of_net? h]
  · simp [e]

theorem driver?_take {x : Net} (h : l.netlist.net? n = some x) (u : WireUse) (n' : NetRef)
    (w' : Wire) : (l.take n x w u).netlist.driver? n' w' =
      if n' = n ∧ w' = w then u.driver else l.netlist.driver? n' w' := by
  rw [Netlist.driver?, use?_take l h]
  split <;> rfl

@[simp] theorem site?_release (x : Net) (driver : Option Pip) (s : Site) :
    (l.release n x w driver).owners.site? s = l.owners.site? s := by
  unfold release
  split <;> rfl

theorem netlist_release (x : Net) (driver : Option Pip) : (l.release n x w driver).netlist =
    l.netlist.setNet n { x with wires := x.wires.erase w } := by
  unfold release
  split <;> rfl

@[simp] theorem wire?_release (x : Net) (driver : Option Pip) (w' : Wire) :
    (l.release n x w driver).owners.wire? w' = if w' = w then none else l.owners.wire? w' := by
  unfold release
  split <;> exact l.wire?_freeWire w'

@[simp] theorem pip?_release (x : Net) (driver : Option Pip) (p : Pip) :
    (l.release n x w driver).owners.pip? p =
      if driver = some p then none else l.owners.pip? p := by
  unfold release
  split
  next => rfl
  next q =>
    refine (SortedMap.get?_erase l.owners.ofPip q p).trans ?_
    by_cases e : p = q
    · simp [e]
    · simp [e, Ne.symm e, Owners.pip?]

@[simp] theorem siteOf?_release (x : Net) (driver : Option Pip) (c : CellRef) :
    (l.release n x w driver).netlist.siteOf? c = l.netlist.siteOf? c := by
  rw [netlist_release, Netlist.siteOf?_setNet]

theorem use?_release {x : Net} (h : l.netlist.net? n = some x) (driver : Option Pip) (n' : NetRef)
    (w' : Wire) : (l.release n x w driver).netlist.use? n' w' =
      if n' = n ∧ w' = w then none else l.netlist.use? n' w' := by
  rw [netlist_release, Netlist.use?_setNet h]
  by_cases e : n' = n
  · subst e
    simp [SortedMap.get?_erase, Netlist.use?_of_net? h]
  · simp [e]

/-- Where owners of wires and nets agree, they agree after a net gives up a wire of its own. -/
theorem wire_iff_use_release {x : Net}
    (wire : ∀ w n, l.owners.wire? w = some n ↔ ∃ u, l.netlist.use? n w = some u)
    (net : l.netlist.net? n = some x) (owned : l.owners.wire? w = some n) (driver : Option Pip)
    (w' : Wire) (n' : NetRef) : (l.release n x w driver).owners.wire? w' = some n' ↔
      ∃ u, (l.release n x w driver).netlist.use? n' w' = some u := by
  rw [wire?_release, use?_release l net]
  by_cases hw : w' = w
  · subst hw
    by_cases hn : n' = n
    · simp [hn]
    · have : ¬ ∃ u, l.netlist.use? n' w' = some u := by
        rw [← wire w' n', owned]
        exact fun e => hn (Option.some.inj e).symm
      simpa [hn] using this
  · simp [hw, wire w' n']

theorem driver?_release {x : Net} (h : l.netlist.net? n = some x) (driver : Option Pip)
    (n' : NetRef) (w' : Wire) : (l.release n x w driver).netlist.driver? n' w' =
      if n' = n ∧ w' = w then none else l.netlist.driver? n' w' := by
  rw [Netlist.driver?, use?_release l h]
  split <;> rfl

end

end Fabric.Ledger
