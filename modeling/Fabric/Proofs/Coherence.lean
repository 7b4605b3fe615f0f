import Fabric.Proofs.Adjacency
import Fabric.Proofs.Netlist
import Fabric.Proofs.Tables
/-!
Coherence of chips. However a chip was edited, its parts tell the same: the index of a kind is the
inverse of its names, both ends of a pip are wires of the chip, the lists at a wire are the pips
with an end there, and membership agrees with the lists of all handles (`run_coherent`). The last
handle is the null handle, so this is said of tables that do not reach it.
-/

namespace Fabric

/-- The entry at a position of a table. Where there is none, the question is refused. -/
def entryAt {ε : Type} (entries : List ε) (i : Nat) (unknown : Refusal) : Except Refusal ε :=
  match entries[i]? with
  | some e => .ok e
  | none => .error unknown

theorem map_entryAt_eq_ok_iff {ε α : Type} {entries : List ε} {i : Nat} {unknown : Refusal}
    {f : ε → α} {a : α} :
    (entryAt entries i unknown).map f = .ok a ↔ ∃ e, entries[i]? = some e ∧ f e = a := by
  unfold entryAt
  cases entries[i]? with
  | none => simp [Except.map]
  | some e => simp [Except.map]

namespace Chip

variable {c : Chip}

/-! ## Rows by handle -/

theorem site_eq_entryAt (c : Chip) (s : Site) :
    c.site s = entryAt c.sites s.index (.unknownSite c.name s) := by
  unfold site site? entryAt
  cases c.sites[s.index]? <;> rfl

theorem wire_eq_entryAt (c : Chip) (w : Wire) :
    c.wire w = entryAt c.wires w.index (.unknownWire c.name w) := by
  unfold wire wire? entryAt
  cases c.wires[w.index]? <;> rfl

theorem pip_eq_entryAt (c : Chip) (p : Pip) :
    c.pip p = entryAt c.pips p.index (.unknownPip c.name p) := by
  unfold pip pip? entryAt
  cases c.pips[p.index]? <;> rfl

theorem map_site_eq_ok_iff {α : Type} {f : SiteRow → α} {s : Site} {a : α} :
    (c.site s).map f = .ok a ↔ ∃ row, c.sites[s.index]? = some row ∧ f row = a := by
  rw [site_eq_entryAt, map_entryAt_eq_ok_iff]

theorem map_wire_eq_ok_iff {α : Type} {f : WireRow → α} {w : Wire} {a : α} :
    (c.wire w).map f = .ok a ↔ ∃ row, c.wires[w.index]? = some row ∧ f row = a := by
  rw [wire_eq_entryAt, map_entryAt_eq_ok_iff]

theorem map_pip_eq_ok_iff {α : Type} {f : PipRow → α} {p : Pip} {a : α} :
    (c.pip p).map f = .ok a ↔ ∃ row, c.pips[p.index]? = some row ∧ f row = a := by
  rw [pip_eq_entryAt, map_entryAt_eq_ok_iff]

/-! ## Names -/

/-- The three indices are those of the three tables. -/
structure HasIndices (c : Chip) : Prop where
  sites : Catalogued (c.sites.map (·.name)) c.siteByName
  wires : Catalogued (c.wires.map (·.name)) c.wireByName
  pips : Catalogued (c.pips.map (·.name)) c.pipByName

namespace HasIndices

theorem blank (family name : String) : HasIndices { Chip.blank name with family } :=
  ⟨.empty, .empty, .empty⟩

theorem setSite (h : c.HasIndices) {s : Site} {row row' : SiteRow} (there : c.site? s = some row)
    (same : row'.name = row.name) :
    HasIndices { c with sites := c.sites.set s.index row' } := by
  refine ⟨?_, h.wires, h.pips⟩
  have names : (c.sites.set s.index row').map (·.name) = c.sites.map (·.name) :=
    Netlist.map_set_eq_map there same
  rw [names]
  exact h.sites

/-- A pip leaves the names of the wires alone. -/
theorem names_appendPip (c : Chip) (row : PipRow) :
    (c.appendPip row).wires.map (·.name) = c.wires.map (·.name) :=
  let p : Pip := .ofIndex c.pips.length
  (map_modify_eq_map (f := addUphill p) (fun _ => rfl) _ row.target.index).trans
    (map_modify_eq_map (f := addDownhill p) (fun _ => rfl) c.wires row.source.index)

theorem edited {c' : Chip} {edit : Edit} {reply : Reply} (h : c.HasIndices)
    (edited : Edited c edit reply c') : c'.HasIndices := by
  cases edited with
  | addSite _ new =>
    exact ⟨by simpa [appendSite] using h.sites.push (h.sites.not_mem new), h.wires, h.pips⟩
  | addWire _ new =>
    exact ⟨h.sites, by simpa [appendWire] using h.wires.push (h.wires.not_mem new), h.pips⟩
  | addPip _ new =>
    refine ⟨h.sites, ?_, by simpa [appendPip] using h.pips.push (h.pips.not_mem new)⟩
    rw [names_appendPip]
    exact h.wires
  | setHidden there => exact h.setSite there rfl
  | setGlobalBuffer there => exact h.setSite there rfl
  | patchSite name => exact ⟨(map_modify_eq_map name c.sites _).symm ▸ h.sites, h.wires, h.pips⟩
  | patchWire same =>
    have names := map_modify_eq_map (fun row => (same row).1) c.wires
    exact ⟨h.sites, (names _).symm ▸ h.wires, h.pips⟩
  | patchPip same =>
    have names := map_modify_eq_map (fun row => (same row).1) c.pips
    exact ⟨h.sites, h.wires, (names _).symm ▸ h.pips⟩

end HasIndices

theorem Grows.hasIndices {family name : String} (h : Grows { Chip.blank name with family } c) :
    c.HasIndices :=
  h.invariant (.blank family name) .edited

/-! ## Coherence -/

/-- The handles of a kind are those that have a name, and the index is the inverse of the names. -/
structure Named {k : Kind} (handles : List (Handle k)) (name : Handle k → Except Refusal Symbol)
    (index : SortedMap Symbol (Handle k)) : Prop where
  mem_iff : ∀ h, h ∈ handles ↔ ∃ x, name h = .ok x
  get?_iff : ∀ x h, index.get? x = some h ↔ name h = .ok x

theorem Named.of_indexed {k : Kind} {names : List Symbol} {index : SortedMap Symbol (Handle k)}
    (h : Indexed names index) (few : names.length < UInt32.size)
    (name : Handle k → Except Refusal Symbol)
    (read : ∀ h x, name h = .ok x ↔ names[h.index]? = some x) :
    Named (Handle.firstN k names.length) name index where
  mem_iff h := by
    simp only [Handle.mem_firstN_iff few, read, List.getElem?_eq_some_iff]
    exact ⟨fun lt => ⟨_, lt, rfl⟩, fun ⟨_, lt, _⟩ => lt⟩
  get?_iff x g := by
    rw [h x g, read]
    constructor
    · rintro ⟨i, at_i, rfl⟩
      have lt := (List.getElem?_eq_some_iff.mp at_i).1
      rwa [Handle.index_ofIndex (Nat.lt_trans lt few)]
    · intro at_index
      exact ⟨g.index, at_index, (Handle.ofIndex_index g).symm⟩

/-- The list has exactly the pips with this end at the wire, each once and in ascending order. -/
structure ListedAt (ends : Pip → Except Refusal Wire) (w : Wire) (l : List Pip) : Prop where
  ascending : l.Pairwise fun p q => p.index < q.index
  mem_iff : ∀ p, p ∈ l ↔ ends p = .ok w

theorem listedAt_pipsAt (few : c.pips.length < UInt32.size) (ends : PipRow → Wire) (w : Wire) :
    ListedAt (fun p => (c.pip p).map ends) w (c.pipsAt ends w.index) where
  ascending := by
    refine List.pairwise_map.mpr ((positions_ascending _ c.pips).imp_of_mem ?_)
    intro i j hi hj lt
    have inside {n : Nat} (hn : n ∈ positions (fun row => decide ((ends row).index = w.index))
        c.pips) : n < UInt32.size := by
      obtain ⟨row, at_n, _⟩ := mem_positions.mp hn
      exact Nat.lt_trans (List.getElem?_eq_some_iff.mp at_n).1 few
    rwa [Handle.index_ofIndex (inside hi), Handle.index_ofIndex (inside hj)]
  mem_iff p := by
    simp only [pipsAt, List.mem_map, mem_positions, decide_eq_true_eq, map_pip_eq_ok_iff,
      Handle.index_inj]
    constructor
    · rintro ⟨i, ⟨row, at_i, here⟩, rfl⟩
      have lt := (List.getElem?_eq_some_iff.mp at_i).1
      rw [Handle.index_ofIndex (Nat.lt_trans lt few)]
      exact ⟨row, at_i, here⟩
    · rintro ⟨row, at_p, here⟩
      exact ⟨p.index, ⟨row, at_p, here⟩, Handle.ofIndex_index p⟩

/-- The parts of a chip tell the same. -/
structure Coherent (c : Chip) : Prop where
  sites : Named c.siteHandles c.siteName c.siteByName
  wires : Named c.wireHandles c.wireName c.wireByName
  pips : Named c.pipHandles c.pipName c.pipByName
  source : ∀ p ∈ c.pipHandles, ∃ w ∈ c.wireHandles, c.source p = .ok w
  target : ∀ p ∈ c.pipHandles, ∃ w ∈ c.wireHandles, c.device.target p = .ok w
  downhill : ∀ w ∈ c.wireHandles, ∃ l, c.downhill w = .ok l ∧ ListedAt c.source w l
  uphill : ∀ w ∈ c.wireHandles, ∃ l, c.uphill w = .ok l ∧ ListedAt c.device.target w l
  hasSite : ∀ s, c.device.hasSite s = c.device.sites.contains s
  hasWire : ∀ w, c.device.hasWire w = c.wireHandles.contains w

section
variable (indices : c.HasIndices) (lists : c.ListsPips) (few_sites : c.sites.length < UInt32.size)
  (few_wires : c.wires.length < UInt32.size) (few_pips : c.pips.length < UInt32.size)

include few_pips in
theorem exists_row_of_mem {p : Pip} (h : p ∈ c.pipHandles) :
    ∃ row ∈ c.pips, c.pips[p.index]? = some row := by
  have lt := (Handle.mem_firstN_iff few_pips).mp h
  exact ⟨_, List.getElem_mem lt, List.getElem?_eq_getElem lt⟩

include few_wires in
theorem exists_wireRow_of_mem {w : Wire} (h : w ∈ c.wireHandles) :
    ∃ row, c.wires[w.index]? = some row :=
  ⟨_, List.getElem?_eq_getElem ((Handle.mem_firstN_iff few_wires).mp h)⟩

include indices lists few_sites few_wires few_pips in
theorem Coherent.of_invariants : c.Coherent where
  sites := by
    have named := Named.of_indexed indices.sites.indexed (by simpa) c.siteName fun s x => by
      rw [siteName, map_site_eq_ok_iff, List.getElem?_map, Option.map_eq_some_iff]
    rwa [List.length_map] at named
  wires := by
    have named := Named.of_indexed indices.wires.indexed (by simpa) c.wireName fun w x => by
      rw [wireName, map_wire_eq_ok_iff, List.getElem?_map, Option.map_eq_some_iff]
    rwa [List.length_map] at named
  pips := by
    have named := Named.of_indexed indices.pips.indexed (by simpa) c.pipName fun p x => by
      rw [pipName, map_pip_eq_ok_iff, List.getElem?_map, Option.map_eq_some_iff]
    rwa [List.length_map] at named
  source p hp := by
    obtain ⟨row, mem, at_p⟩ := exists_row_of_mem few_pips hp
    have inside := (lists.inside row mem).1
    exact ⟨row.source, (Handle.mem_firstN_iff few_wires).mpr inside,
      map_pip_eq_ok_iff.mpr ⟨row, at_p, rfl⟩⟩
  target p hp := by
    obtain ⟨row, mem, at_p⟩ := exists_row_of_mem few_pips hp
    have inside := (lists.inside row mem).2
    exact ⟨row.target, (Handle.mem_firstN_iff few_wires).mpr inside,
      map_pip_eq_ok_iff.mpr ⟨row, at_p, rfl⟩⟩
  downhill w hw := by
    obtain ⟨row, at_w⟩ := exists_wireRow_of_mem few_wires hw
    refine ⟨row.downhill, map_wire_eq_ok_iff.mpr ⟨row, at_w, rfl⟩, ?_⟩
    rw [lists.downhill at_w]
    exact listedAt_pipsAt few_pips (·.source) w
  uphill w hw := by
    obtain ⟨row, at_w⟩ := exists_wireRow_of_mem few_wires hw
    refine ⟨row.uphill, map_wire_eq_ok_iff.mpr ⟨row, at_w, rfl⟩, ?_⟩
    rw [lists.uphill at_w]
    exact listedAt_pipsAt few_pips (·.target) w
  hasSite s := (Handle.contains_firstN few_sites s).symm
  hasWire w := (Handle.contains_firstN few_wires w).symm

end

/-- After any edits of a blank chip, refused ones included, the parts of the chip tell the same,
unless a table reaches the null handle; and an edit that is refused leaves the chip as it was. -/
theorem run_coherent (name : String) (edits : List Edit) {c : Chip}
    (reached : (blank name).run edits = c) :
    (c.sites.length < UInt32.size - 1 → c.wires.length < UInt32.size - 1 →
      c.pips.length < UInt32.size - 1 → c.Coherent) ∧
    ∀ edit r, (c.perform edit).answer = .error r → (c.perform edit).state = c := by
  have grows : Grows { blank name with family := defaultFamily } c := reached ▸ .run _ edits
  refine ⟨fun few_sites few_wires few_pips => ?_, fun edit r => state_of_refused⟩
  have few {n : Nat} (h : n < UInt32.size - 1) : n < UInt32.size := by omega
  exact .of_invariants grows.hasIndices grows.listsPips (few few_sites) (few few_wires)
    (few few_pips)

/-! ## A small run -/

def loopNames : Interner := ⟨["W0", "P0", "S", "LUT"], by decide⟩

/-- A wire with a pip to itself, and a site. Refused are a pip to a wire that is not there, a flag
of a site that is not there yet and a wire with the first one's name. -/
def loopEdits : List Edit :=
  [.addWire loopNames "W0" none, .addPip loopNames "P1" ⟨0⟩ ⟨1⟩, .addPip loopNames "P0" ⟨0⟩ ⟨0⟩,
    .setHidden ⟨0⟩ true, .addSite loopNames "S" "LUT", .setHidden ⟨0⟩ true,
    .addWire loopNames "W0" none]

def loop : Chip := (blank "loop").run loopEdits

/-- The pip is listed at both its ends, the site is found by its name, and a further wire of the
name is refused. -/
theorem run_coherent_loop :
    loop.sites.length < UInt32.size - 1 ∧ loop.wires.length < UInt32.size - 1 ∧
    loop.pips.length < UInt32.size - 1 ∧ ListedAt loop.source ⟨0⟩ [⟨0⟩] ∧
    ListedAt loop.device.target ⟨0⟩ [⟨0⟩] ∧ loop.siteName ⟨0⟩ = .ok ⟨2⟩ ∧
    (loop.perform (.addWire loopNames "W0" none)).state = loop := by
  have few : loop.sites.length < UInt32.size - 1 ∧ loop.wires.length < UInt32.size - 1 ∧
      loop.pips.length < UInt32.size - 1 := by decide
  obtain ⟨few_sites, few_wires, few_pips⟩ := few
  obtain ⟨coherent, refused⟩ := run_coherent "loop" loopEdits (rfl : _ = loop)
  have coherent := coherent few_sites few_wires few_pips
  have wire : (⟨0⟩ : Wire) ∈ loop.wireHandles := by decide
  obtain ⟨_, down, downhill⟩ := coherent.downhill _ wire
  obtain ⟨_, up, uphill⟩ := coherent.uphill _ wire
  cases down
  cases up
  exact ⟨few_sites, few_wires, few_pips, downhill, uphill,
    (coherent.sites.get?_iff _ _).mp rfl, refused _ (.entry (.duplicateName .wire "W0")) rfl⟩

end Chip

end Fabric
