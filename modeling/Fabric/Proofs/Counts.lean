import Fabric.Proofs.Consistency
import Mathlib.Algebra.Order.BigOperators.Group.List
import Mathlib.Algebra.Order.Ring.Nat
import Mathlib.Data.List.Nodup
/-!
Counts. A netlist lists the sites of its cells, the wires of its nets and the pips that drive them.
In a consistent ledger nothing is listed twice, since each site, wire and pip has one owner, and the
listed are exactly the bound. So the sizes of the owner maps are totals over the netlist
(`Flow.Reachable.counts_conserved`).
-/

namespace Fabric

/-! ## What a netlist lists -/

/-- The pips that the net records, one for each driven wire. -/
def Net.drivers (x : Net) : List Pip := x.wires.values.filterMap (·.driver)

theorem Net.mem_drivers {x : Net} {p : Pip} :
    p ∈ x.drivers ↔ ∃ w u, x.wires.get? w = some u ∧ u.driver = some p := by
  simp only [drivers, List.mem_filterMap, SortedMap.mem_values_iff]
  constructor
  · rintro ⟨u, ⟨w, hu⟩, hp⟩
    exact ⟨w, u, hu, hp⟩
  · rintro ⟨w, u, hu, hp⟩
    exact ⟨u, ⟨w, hu⟩, hp⟩

namespace Netlist

/-- The sites of the cells. -/
def sites (m : Netlist) : List Site := m.cells.filterMap (·.site)

/-- The wires that the nets list. -/
def wires (m : Netlist) : List Wire := m.nets.flatMap (·.wires.keys)

/-- The pips that the nets record. -/
def drivers (m : Netlist) : List Pip := m.nets.flatMap (·.drivers)

section
variable {m : Netlist} (tail : m.TailBlank)
include tail

theorem mem_sites {s : Site} : s ∈ m.sites ↔ ∃ c, m.siteOf? c = some s := by
  simp only [sites, List.mem_filterMap, siteOf?_eq_some]
  constructor
  · rintro ⟨x, hx, placed⟩
    obtain ⟨i, hi⟩ := List.mem_iff_getElem?.mp hx
    exact ⟨_, x, (tail.cell?_ofIndex hi placed).2, placed⟩
  · rintro ⟨c, x, hx, placed⟩
    exact ⟨x, List.mem_of_getElem? hx, placed⟩

/-- What only nets with wires have is found through handles. -/
theorem exists_net_iff {P : Net → Prop} (listed : ∀ x, P x → ∃ w u, x.wires.get? w = some u) :
    (∃ x ∈ m.nets, P x) ↔ ∃ n x, m.net? n = some x ∧ P x := by
  constructor
  · rintro ⟨x, hx, hp⟩
    obtain ⟨i, hi⟩ := List.mem_iff_getElem?.mp hx
    obtain ⟨w, u, hu⟩ := listed x hp
    exact ⟨_, x, (tail.net?_ofIndex hi hu).2, hp⟩
  · rintro ⟨n, x, hx, hp⟩
    exact ⟨x, List.mem_of_getElem? hx, hp⟩

theorem mem_wires {w : Wire} : w ∈ m.wires ↔ ∃ n u, m.use? n w = some u := by
  simp only [wires, List.mem_flatMap, SortedMap.mem_keys_iff_get?, use?_eq_some]
  rw [exists_net_iff tail fun x hx => ⟨w, hx⟩]
  constructor
  · rintro ⟨n, x, hx, u, hu⟩
    exact ⟨n, u, x, hx, hu⟩
  · rintro ⟨n, u, x, hx, hu⟩
    exact ⟨n, x, hx, u, hu⟩

theorem mem_drivers {p : Pip} : p ∈ m.drivers ↔ ∃ n w, m.driver? n w = some p := by
  simp only [drivers, List.mem_flatMap, Net.mem_drivers, driver?_eq_some, use?_eq_some]
  rw [exists_net_iff tail fun x ⟨w, u, hu, _⟩ => ⟨w, u, hu⟩]
  constructor
  · rintro ⟨n, x, hx, w, u, hu, hp⟩
    exact ⟨n, w, u, ⟨x, hx, hu⟩, hp⟩
  · rintro ⟨n, w, u, ⟨x, hx, hu⟩, hp⟩
    exact ⟨n, x, hx, w, u, hu, hp⟩

/-- What each net lists once, and no two nets list, is listed once. -/
theorem nodup_flatMap {α : Type} {f : Net → List α}
    (listed : ∀ x a, a ∈ f x → ∃ w u, x.wires.get? w = some u)
    (once : ∀ n x, m.net? n = some x → (f x).Nodup)
    (owner : ∀ n n' x x' a, m.net? n = some x → m.net? n' = some x' → a ∈ f x → a ∈ f x' → n = n') :
    (m.nets.flatMap f).Nodup := by
  have reached : ∀ i x a, m.nets[i]? = some x → a ∈ f x →
      i < UInt32.size ∧ m.net? (.ofIndex i) = some x := by
    intro i x a hx ha
    obtain ⟨w, u, hu⟩ := listed x a ha
    exact tail.net?_ofIndex hx hu
  rw [List.nodup_flatMap]
  constructor
  · intro x hx
    obtain ⟨i, hi⟩ := List.mem_iff_getElem?.mp hx
    cases hf : f x with
    | nil => exact List.nodup_nil
    | cons a r =>
      obtain ⟨_, net⟩ := reached i x a hi (hf ▸ List.mem_cons_self)
      exact hf ▸ once _ x net
  · rw [List.pairwise_iff_getElem]
    intro i j hi hj lt a ha ha'
    obtain ⟨small, net⟩ := reached i _ a (List.getElem?_eq_getElem hi) ha
    obtain ⟨small', net'⟩ := reached j _ a (List.getElem?_eq_getElem hj) ha'
    have same := (Handle.ofIndex_inj small small').mp (owner _ _ _ _ a net net' ha ha')
    omega

end

end Netlist

/-! ## Listed once -/

namespace Ledger.Consistent

variable {β : Type} [BucketKey β] {d : Device β} {l : Ledger} (h : l.Consistent d)
  (tail : l.netlist.TailBlank)
include h tail

theorem nodup_sites : l.netlist.sites.Nodup := by
  apply List.pairwise_filterMap.mpr
  rw [List.pairwise_iff_getElem]
  rintro i j hi hj lt s hs _ hs' rfl
  obtain ⟨small, cell⟩ := tail.cell?_ofIndex (List.getElem?_eq_getElem hi) hs
  obtain ⟨small', cell'⟩ := tail.cell?_ofIndex (List.getElem?_eq_getElem hj) hs'
  have owned := (h.site s _).mpr (Netlist.siteOf?_eq_some.mpr ⟨_, cell, hs⟩)
  have owned' := (h.site s _).mpr (Netlist.siteOf?_eq_some.mpr ⟨_, cell', hs'⟩)
  have same := (Handle.ofIndex_inj small small').mp (Option.some.inj (owned.symm.trans owned'))
  omega

theorem nodup_wires : l.netlist.wires.Nodup := by
  refine Netlist.nodup_flatMap tail ?_ (fun _ x _ => x.wires.nodup_keys) ?_
  · intro x w hw
    exact ⟨w, (x.wires.mem_keys_iff_get? w).mp hw⟩
  · intro n n' x x' w hx hx' hw hw'
    rw [SortedMap.mem_keys_iff_get?] at hw hw'
    rw [← Netlist.use?_of_net? hx, ← h.wire w n] at hw
    rw [← Netlist.use?_of_net? hx', ← h.wire w n'] at hw'
    exact Option.some.inj (hw.symm.trans hw')

/-- A pip is recorded for the one wire that it drives. -/
theorem nodup_drivers : l.netlist.drivers.Nodup := by
  have recorded : ∀ n x w u p, l.netlist.net? n = some x → x.wires.get? w = some u →
      u.driver = some p → d.target p = .ok w ∧ l.owners.pip? p = some n := by
    intro n x w u p hx hu hp
    apply h.recorded_bound
    exact Netlist.driver?_eq_some.mpr ⟨u, Netlist.use?_eq_some.mpr ⟨x, hx, hu⟩, hp⟩
  refine Netlist.nodup_flatMap tail ?_ ?_ ?_
  · intro x p hp
    obtain ⟨w, u, hu, _⟩ := Net.mem_drivers.mp hp
    exact ⟨w, u, hu⟩
  · intro n x hx
    apply List.pairwise_filterMap.mpr
    apply List.pairwise_map.mpr
    apply x.wires.sorted.imp_of_mem
    rintro ⟨w, u⟩ ⟨w', u'⟩ hw hw' lt p hp _ hp' rfl
    obtain ⟨target, _⟩ := recorded n x w u p hx ((x.wires.mem_entries_iff w u).mp hw) hp
    obtain ⟨target', _⟩ := recorded n x w' u' p hx ((x.wires.mem_entries_iff w' u').mp hw') hp'
    cases target.symm.trans target'
    simp [Std.ReflCmp.compare_self] at lt
  · intro n n' x x' p hx hx' hp hp'
    obtain ⟨w, u, hu, hp⟩ := Net.mem_drivers.mp hp
    obtain ⟨w', u', hu', hp'⟩ := Net.mem_drivers.mp hp'
    obtain ⟨_, owned⟩ := recorded n x w u p hx hu hp
    obtain ⟨_, owned'⟩ := recorded n' x' w' u' p hx' hu' hp'
    exact Option.some.inj (owned.symm.trans owned')

/-! ## The bound are the listed -/

theorem sites_perm : l.owners.ofSite.keys.Perm l.netlist.sites := by
  rw [List.perm_ext_iff_of_nodup (SortedMap.nodup_keys _) (h.nodup_sites tail)]
  intro s
  rw [SortedMap.mem_keys_iff_get?, Netlist.mem_sites tail]
  exact exists_congr (h.site s)

theorem wires_perm : l.owners.ofWire.keys.Perm l.netlist.wires := by
  rw [List.perm_ext_iff_of_nodup (SortedMap.nodup_keys _) (h.nodup_wires tail)]
  intro w
  rw [SortedMap.mem_keys_iff_get?, Netlist.mem_wires tail]
  exact exists_congr (h.wire w)

theorem drivers_perm : l.owners.ofPip.keys.Perm l.netlist.drivers := by
  rw [List.perm_ext_iff_of_nodup (SortedMap.nodup_keys _) (h.nodup_drivers tail)]
  intro p
  rw [SortedMap.mem_keys_iff_get?, Netlist.mem_drivers tail]
  exact exists_congr (h.pip_iff_recorded p)

end Ledger.Consistent

/-! ## Sizes -/

theorem SortedMap.length_keys {κ ν : Type} [Ord κ] (m : SortedMap κ ν) : m.keys.length = m.size :=
  List.length_map _

theorem Net.length_drivers (x : Net) :
    x.drivers.length = x.wires.values.countP (·.driver.isSome) :=
  List.length_filterMap_eq_countP

theorem Net.length_drivers_le (x : Net) : x.drivers.length ≤ x.wires.size := by
  have le := List.length_filterMap_le (fun u : WireUse => u.driver) x.wires.values
  rwa [SortedMap.values, List.length_map] at le

namespace Netlist

theorem length_sites (m : Netlist) : m.sites.length = m.cells.countP (·.site.isSome) :=
  List.length_filterMap_eq_countP

theorem length_wires (m : Netlist) : m.wires.length = (m.nets.map (·.wires.size)).sum := by
  simp only [wires, List.length_flatMap, SortedMap.length_keys]

theorem length_drivers (m : Netlist) : m.drivers.length =
    (m.nets.map fun x => x.wires.values.countP (·.driver.isSome)).sum := by
  simp only [drivers, List.length_flatMap, Net.length_drivers]

theorem length_drivers_le (m : Netlist) : m.drivers.length ≤ m.wires.length := by
  simp only [drivers, wires, List.length_flatMap, SortedMap.length_keys]
  exact List.sum_le_sum fun x _ => x.length_drivers_le

end Netlist

namespace Flow

/-- In every reachable flow as many sites are bound as cells are placed, as many wires as the nets
list in total, and as many pips as the nets record drivers. -/
theorem Reachable.counts_conserved {β : Type} [BucketKey β] {d : Device β} {f : Flow β}
    (h : Reachable d f) :
    f.layout.boundCounts = (f.netlist.cells.countP (·.site.isSome),
      (f.netlist.nets.map (·.wires.size)).sum,
      (f.netlist.nets.map fun x => x.wires.values.countP (·.driver.isSome)).sum) ∧
    f.layout.boundCounts.2.2 ≤ f.layout.boundCounts.2.1 := by
  have tail := h.built.tail
  have sites := (h.consistent.sites_perm tail).length_eq
  have wires := (h.consistent.wires_perm tail).length_eq
  have pips := (h.consistent.drivers_perm tail).length_eq
  rw [SortedMap.length_keys] at sites wires pips
  have counts : f.layout.boundCounts =
      (f.netlist.sites.length, f.netlist.wires.length, f.netlist.drivers.length) :=
    Prod.ext sites (Prod.ext wires pips)
  rw [counts]
  constructor
  · rw [Netlist.length_sites, Netlist.length_wires, Netlist.length_drivers]
  · exact f.netlist.length_drivers_le

/-- The sample chip with a placed cell, a driven wire and one in direct use. On the way a bind was
refused and a wire released together with its pip. -/
def tallied : Flow Symbol :=
  sample.run [.addCell ⟨0⟩ ⟨1⟩, .addNet ⟨2⟩, .addNet ⟨3⟩, .bindSite ⟨0⟩ ⟨0⟩ .weak,
    .bindPip ⟨0⟩ ⟨0⟩ .weak, .bindWire ⟨1⟩ ⟨1⟩ .user, .unbindWire ⟨1⟩, .bindWire ⟨1⟩ ⟨1⟩ .user,
    .bindPip ⟨0⟩ ⟨1⟩ .strong, .bindWire ⟨2⟩ ⟨0⟩ .weak]

theorem counts_conserved_tallied :
    Reachable Chip.sample.chip.device tallied ∧ tallied.layout.boundCounts = (1, 2, 1) ∧
    (tallied.netlist.cells.countP (·.site.isSome), (tallied.netlist.nets.map (·.wires.size)).sum,
      (tallied.netlist.nets.map fun x => x.wires.values.countP (·.driver.isSome)).sum) =
        (1, 2, 1) := by
  have h : Reachable Chip.sample.chip.device tallied := sample_reachable _
  exact ⟨h, rfl, h.counts_conserved.1.symm⟩

end Flow

end Fabric
