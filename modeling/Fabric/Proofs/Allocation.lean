import Fabric.Proofs.Coherence
/-!
The handles of new entries. A new entry gets the size of its table for a handle, counted in 32 bits.
So a handle that an addition answers serves its purpose exactly as long as the table has fewer than
2^32 - 1 entries: the next one is the null handle, and from 2^32 entries on those of the first are
answered again (`additions_allot`). Netlists do come to this. A chip does not repeat handles, since
its names are 32-bit symbols, but its last handle is null.
-/

namespace Fabric

/-- A position has a handle of those before once the count has come round. -/
theorem Handle.exists_ofIndex_eq_iff {k : Kind} {n : Nat} :
    (∃ i < n, (ofIndex i : Handle k) = ofIndex n) ↔ UInt32.size ≤ n := by
  simp only [ofIndex_eq_iff]
  constructor
  · rintro ⟨i, lt, same⟩
    by_contra few
    rw [Nat.mod_eq_of_lt (by omega), Nat.mod_eq_of_lt (by omega)] at same
    omega
  · intro full
    have := Nat.mod_lt n (show 0 < UInt32.size by decide)
    exact ⟨n % UInt32.size, by omega, Nat.mod_mod n _⟩

/-! ## Handles that serve -/

/-- A handle for a new entry as it should be: it is not null, it was not given before, and the new
entry is found under it. -/
structure Serves {k : Kind} (h : Handle k) (given : Handle k → Prop) (found : Prop) : Prop where
  valid : h.isNull = false
  fresh : ¬ given h
  found : found

/-- What the handle is like that a table with `n` entries gives for one more. -/
structure Allots {k : Kind} (n : Nat) (h : Handle k) (given : Handle k → Prop) (found : Prop) :
    Prop where
  serves_iff : Serves h given found ↔ n < UInt32.size - 1
  null_iff : h.isNull = true ↔ n % UInt32.size = UInt32.size - 1
  given_iff : given h ↔ UInt32.size ≤ n
  found : n < UInt32.size → found

theorem Allots.of_given {k : Kind} {n : Nat} {given : Handle k → Prop} {found : Prop}
    (positions : ∀ h, given h ↔ ∃ i < n, .ofIndex i = h) (found_of : n < UInt32.size → found) :
    Allots n (.ofIndex n) given found := by
  have null_iff := Handle.isNull_ofIndex (k := k) n
  have given_iff := (positions (.ofIndex n)).trans Handle.exists_ofIndex_eq_iff
  refine ⟨⟨fun serves => ?_, fun few => ?_⟩, null_iff, given_iff, found_of⟩
  · -- The two ways to fail: the count is the last one, or it has come round.
    have fresh := mt given_iff.mpr serves.fresh
    have valid := mt null_iff.mpr (Bool.eq_false_iff.mp serves.valid)
    rw [Nat.mod_eq_of_lt (by omega)] at valid
    omega
  · have last : n % UInt32.size = n := Nat.mod_eq_of_lt (by omega)
    refine ⟨Bool.eq_false_iff.mpr (mt null_iff.mp (by omega)), mt given_iff.mp (by omega),
      found_of (by omega)⟩

/-! ## Netlists -/

namespace Netlist

/-- The netlist was made by additions that answered these handles, in this order; in between, any
cell or net may have been rewritten. -/
inductive Issued : Netlist → List CellRef → List NetRef → Prop
  | empty : Issued ∅ [] []
  | addCell {m cells nets} (h : Issued m cells nets) (name type : Symbol) :
      Issued (m.addCell name type).2 (cells ++ [(m.addCell name type).1]) nets
  | addNet {m cells nets} (h : Issued m cells nets) (name : Symbol) :
      Issued (m.addNet name).2 cells (nets ++ [(m.addNet name).1])
  | setCell {m cells nets} (h : Issued m cells nets) (c : CellRef) (x : Cell) :
      Issued (m.setCell c x) cells nets
  | setNet {m cells nets} (h : Issued m cells nets) (n : NetRef) (x : Net) :
      Issued (m.setNet n x) cells nets

variable {m : Netlist} {cells : List CellRef} {nets : List NetRef}

/-- The handles that were answered are the positions of the tables. -/
theorem Issued.eq_map_range (h : Issued m cells nets) :
    cells = (List.range m.cells.length).map .ofIndex ∧
      nets = (List.range m.nets.length).map .ofIndex := by
  induction h with
  | empty => exact ⟨rfl, rfl⟩
  | addCell _ name type ih => simp [Netlist.addCell, List.range_succ, ← ih.1, ← ih.2]
  | addNet _ name ih => simp [Netlist.addNet, List.range_succ, ← ih.1, ← ih.2]
  | setCell _ c x ih => simpa [Netlist.setCell] using ih
  | setNet _ n x ih => simpa [Netlist.setNet] using ih

theorem Issued.allots_cell (h : Issued m cells nets) (name type : Symbol) :
    Allots m.cells.length (m.addCell name type).1 (· ∈ cells)
      ((m.addCell name type).2.cell (m.addCell name type).1 =
        .ok ⟨(m.addCell name type).1, name, type, none, .none⟩) := by
  refine .of_given (fun c => ?_) fun few => ?_
  · simp [h.eq_map_range.1]
  · simp [Netlist.addCell, cell, cell?, Handle.index_ofIndex few]

theorem Issued.allots_net (h : Issued m cells nets) (name : Symbol) :
    Allots m.nets.length (m.addNet name).1 (· ∈ nets)
      ((m.addNet name).2.net (m.addNet name).1 = .ok ⟨(m.addNet name).1, name, ∅⟩) := by
  refine .of_given (fun n => ?_) fun few => ?_
  · simp [h.eq_map_range.2]
  · simp [Netlist.addNet, net, net?, Handle.index_ofIndex few]

end Netlist

/-! ## Chips -/

namespace Chip

/-- A kind of entries: their names by position and by handle, and the reply with the handle of a
new one. Nothing but an addition of the kind replies so, and nothing else adds a name. -/
structure Stock (k : Kind) where
  names : Chip → List Symbol
  nameOf : Chip → Handle k → Except Refusal Symbol
  reply : Handle k → Reply
  reply_inj : ∀ {h h'}, reply h = reply h' → h = h'
  nameOf_iff : ∀ {c h x}, nameOf c h = .ok x ↔ (names c)[h.index]? = some x
  nodup : ∀ {c : Chip}, c.HasIndices → (names c).Nodup
  step : ∀ {c c' : Chip} {edit : Edit} {answer : Reply}, Edited c edit answer c' →
    (answer = reply (.ofIndex (names c).length) ∧ ∃ x, names c' = names c ++ [x]) ∨
      (∀ h, answer ≠ reply h) ∧ names c' = names c

def siteStock : Stock .site where
  names c := c.sites.map (·.name)
  nameOf := siteName
  reply := .site
  reply_inj := Reply.site.inj
  nameOf_iff := by
    intro c h x
    rw [siteName, map_site_eq_ok_iff, List.getElem?_map, Option.map_eq_some_iff]
  nodup h := h.sites.distinct
  step edited := by
    cases edited with
    | addSite | addWire | addPip | patchWire | patchPip =>
      simp [appendSite, appendWire, appendPip]
    | setHidden there | setGlobalBuffer there =>
      exact .inr ⟨nofun, Netlist.map_set_eq_map there rfl⟩
    | patchSite name => exact .inr ⟨nofun, map_modify_eq_map name _ _⟩

def wireStock : Stock .wire where
  names c := c.wires.map (·.name)
  nameOf := wireName
  reply := .wire
  reply_inj := Reply.wire.inj
  nameOf_iff := by
    intro c h x
    rw [wireName, map_wire_eq_ok_iff, List.getElem?_map, Option.map_eq_some_iff]
  nodup h := h.wires.distinct
  step edited := by
    cases edited with
    | addPip => exact .inr ⟨nofun, HasIndices.names_appendPip _ _⟩
    | patchWire same => exact .inr ⟨nofun, map_modify_eq_map (fun row => (same row).1) _ _⟩
    | addSite | addWire | setHidden | setGlobalBuffer | patchSite | patchPip =>
      simp [appendSite, appendWire]

def pipStock : Stock .pip where
  names c := c.pips.map (·.name)
  nameOf := pipName
  reply := .pip
  reply_inj := Reply.pip.inj
  nameOf_iff := by
    intro c h x
    rw [pipName, map_pip_eq_ok_iff, List.getElem?_map, Option.map_eq_some_iff]
  nodup h := h.pips.distinct
  step edited := by
    cases edited with
    | patchPip same => exact .inr ⟨nofun, map_modify_eq_map (fun row => (same row).1) _ _⟩
    | addSite | addWire | addPip | setHidden | setGlobalBuffer | patchSite | patchWire =>
      simp [appendSite, appendWire, appendPip]

namespace Stock

variable {k : Kind} (σ : Stock k)

theorem length_le_run (c : Chip) (edits : List Edit) :
    (σ.names c).length ≤ (σ.names (c.run edits)).length := by
  refine (Grows.run c edits).invariant (P := fun c' => (σ.names c).length ≤ (σ.names c').length)
    (Nat.le_refl _) ?_
  intro c₁ c₂ edit answer le edited
  rcases σ.step edited with ⟨_, x, more⟩ | ⟨_, same⟩
  · rw [more, List.length_append]
    omega
  · rwa [same]

/-- The handles that a run answers are the positions by which the table grew. -/
theorem mem_answers_iff (c : Chip) (edits : List Edit) (h : Handle k) :
    .ok (σ.reply h) ∈ c.answers edits ↔
      ∃ i, (σ.names c).length ≤ i ∧ i < (σ.names (c.run edits)).length ∧ .ofIndex i = h := by
  induction edits generalizing c with
  | nil =>
    simp only [answers, run, List.not_mem_nil, false_iff]
    rintro ⟨i, ge, lt, _⟩
    omega
  | cons edit edits ih =>
    rw [answers, run, List.mem_cons, ih]
    rcases c.perform_cases edit with ⟨r, refused⟩ | ⟨answer, c', performed, edited⟩
    · simp [refused, Outcome.refuse]
    · have le := σ.length_le_run c' edits
      simp only [performed, Outcome.accept, Except.ok.injEq]
      rcases σ.step edited with ⟨rfl, x, more⟩ | ⟨other, same⟩
      · rw [more, List.length_append, List.length_singleton] at le ⊢
        constructor
        · rintro (first | ⟨i, ge, lt, at_i⟩)
          · exact ⟨_, Nat.le_refl _, le, (σ.reply_inj first).symm⟩
          · exact ⟨i, by omega, lt, at_i⟩
        · rintro ⟨i, ge, lt, rfl⟩
          rcases Nat.eq_or_lt_of_le ge with rfl | gt
          · exact .inl rfl
          · exact .inr ⟨i, gt, lt, rfl⟩
      · simp [same, (other h).symm]

/-- A chip has no more entries of a kind than there are names, so the count does not come round. -/
theorem allots {start c c' : Chip} (built : start.Built) {edits : List Edit}
    (reached : start.run edits = c) {edit : Edit} {answer : Reply} {x : Symbol}
    (edited : Edited c edit answer c') (more : σ.names c' = σ.names c ++ [x]) :
    (σ.names c).length < UInt32.size ∧
      Allots (σ.names c).length (.ofIndex (σ.names c).length)
        (fun h => h ∈ Handle.firstN k (σ.names start).length ∨
          .ok (σ.reply h) ∈ start.answers edits)
        (σ.nameOf c' (.ofIndex (σ.names c).length) = .ok x) := by
  obtain ⟨family, name, grows⟩ := built.grows
  have grows : Grows { blank name with family } c := grows.trans (reached ▸ .run start edits)
  have room := Symbol.length_le_of_nodup (σ.nodup (grows.step edited).hasIndices)
  rw [more, List.length_append, List.length_singleton] at room
  have le := σ.length_le_run start edits
  rw [reached] at le
  refine ⟨room, .of_given (fun h => ?_) fun few => ?_⟩
  · -- The entries that were there at the start come before those that the run added.
    rw [σ.mem_answers_iff, reached, Handle.firstN_eq (Nat.lt_of_le_of_lt le room)]
    simp only [List.mem_map, List.mem_range]
    constructor
    · rintro (⟨i, lt, at_i⟩ | ⟨i, _, lt, at_i⟩)
      · exact ⟨i, by omega, at_i⟩
      · exact ⟨i, lt, at_i⟩
    · rintro ⟨i, lt, at_i⟩
      rcases Nat.lt_or_ge i (σ.names start).length with old | since
      · exact .inl ⟨i, old, at_i⟩
      · exact .inr ⟨i, since, lt, at_i⟩
  · rw [σ.nameOf_iff, Handle.index_ofIndex few, more]
    simp

end Stock

end Chip

/-! ## All additions -/

/-- The handle of a new entry serves exactly if its table has fewer than 2^32 - 1 entries, for all
five kinds of entries and whatever was done before. A netlist takes more, and then answers the null
handle or one that it gave before. A chip takes one more at most, under the null handle. -/
theorem additions_allot {m : Netlist} {cells : List CellRef} {nets : List NetRef}
    (issued : m.Issued cells nets) {start c : Chip} (built : start.Built)
    {edits : List Chip.Edit} (reached : start.run edits = c) :
    (∀ x type, Allots m.cells.length (m.addCell x type).1 (· ∈ cells)
      ((m.addCell x type).2.cell (m.addCell x type).1 =
        .ok ⟨(m.addCell x type).1, x, type, none, .none⟩)) ∧
    (∀ x, Allots m.nets.length (m.addNet x).1 (· ∈ nets)
      ((m.addNet x).2.net (m.addNet x).1 = .ok ⟨(m.addNet x).1, x, ∅⟩)) ∧
    (∀ names name type reply, (c.perform (.addSite names name type)).answer = .ok reply →
      ∃ s, reply = .site s ∧ c.sites.length < UInt32.size ∧
        Allots c.sites.length s
          (fun s => s ∈ start.siteHandles ∨ .ok (.site s) ∈ start.answers edits)
          ((c.perform (.addSite names name type)).state.siteName s =
            .ok (names.intern name).1)) ∧
    (∀ names name type reply, (c.perform (.addWire names name type)).answer = .ok reply →
      ∃ w, reply = .wire w ∧ c.wires.length < UInt32.size ∧
        Allots c.wires.length w
          (fun w => w ∈ start.wireHandles ∨ .ok (.wire w) ∈ start.answers edits)
          ((c.perform (.addWire names name type)).state.wireName w =
            .ok (names.intern name).1)) ∧
    ∀ names name source target reply,
      (c.perform (.addPip names name source target)).answer = .ok reply →
      ∃ p, reply = .pip p ∧ c.pips.length < UInt32.size ∧
        Allots c.pips.length p
          (fun p => p ∈ start.pipHandles ∨ .ok (.pip p) ∈ start.answers edits)
          ((c.perform (.addPip names name source target)).state.pipName p =
            .ok (names.intern name).1) := by
  refine ⟨issued.allots_cell, issued.allots_net, ?_, ?_, ?_⟩
  · intro names name type reply answered
    have edited := Chip.edited_of_answer answered
    generalize (c.perform (.addSite names name type)).state = c' at edited ⊢
    have allots {x : Symbol} := Chip.siteStock.allots built reached edited (x := x)
    cases edited with
    | addSite named new =>
      have allots := allots List.map_append
      simp only [Chip.siteStock, List.length_map, named] at allots
      exact ⟨_, rfl, allots⟩
  · intro names name type reply answered
    have edited := Chip.edited_of_answer answered
    generalize (c.perform (.addWire names name type)).state = c' at edited ⊢
    have allots {x : Symbol} := Chip.wireStock.allots built reached edited (x := x)
    cases edited with
    | addWire named new uphill downhill =>
      have allots := allots List.map_append
      simp only [Chip.wireStock, List.length_map, named] at allots
      exact ⟨_, rfl, allots⟩
  · intro names name source target reply answered
    have edited := Chip.edited_of_answer answered
    generalize (c.perform (.addPip names name source target)).state = c' at edited ⊢
    have allots {x : Symbol} := Chip.pipStock.allots built reached edited (x := x)
    cases edited with
    | addPip named new source_inside target_inside =>
      have allots := allots List.map_append
      simp only [Chip.pipStock, List.length_map, named] at allots
      exact ⟨_, rfl, allots⟩

/-! ## A second entry, and the last ones -/

def pairNames : Interner := ⟨["A", "B", "LUT"], by decide⟩

def pairEdits : List Chip.Edit := [.addSite pairNames "A" "LUT"]

/-- The second cell and the second site. -/
theorem additions_allot_second :
    Serves (((∅ : Netlist).addCell ⟨0⟩ ⟨2⟩).2.addCell ⟨1⟩ ⟨2⟩).1 (· ∈ [⟨0⟩])
      ((((∅ : Netlist).addCell ⟨0⟩ ⟨2⟩).2.addCell ⟨1⟩ ⟨2⟩).2.cell ⟨1⟩ =
        .ok ⟨⟨1⟩, ⟨1⟩, ⟨2⟩, none, .none⟩) ∧
    ∃ s, Chip.answers (Chip.blank "pair")
        (pairEdits ++ [.addSite pairNames "B" "LUT"]) =
          [.ok (.site ⟨0⟩), .ok (.site s)] ∧
      s.isNull = false := by
  have issued := Netlist.Issued.empty.addCell ⟨0⟩ ⟨2⟩
  have reached : (Chip.blank "pair").run pairEdits = (Chip.blank "pair").run pairEdits := rfl
  obtain ⟨cells, _, sites, _⟩ := additions_allot issued (.blank "pair") reached
  obtain ⟨s, answered, _, allots⟩ := sites pairNames "B" "LUT" (.site ⟨1⟩) rfl
  refine ⟨(cells ⟨1⟩ ⟨2⟩).serves_iff.mpr (by decide), s, ?_,
    (allots.serves_iff.mpr (by decide)).valid⟩
  rw [← answered]
  rfl

namespace Netlist

/-- A netlist of cells that are the same but for their handles. -/
def crowd (n : Nat) : Netlist where
  cells := (List.range n).map fun i => ⟨.ofIndex i, ⟨0⟩, ⟨0⟩, none, .none⟩
  nets := []
  cell_ids i x hx := by
    obtain ⟨lt, rfl⟩ := List.getElem?_eq_some_iff.mp hx
    simp
  net_ids := .nil

theorem issued_crowd (n : Nat) : (crowd n).Issued ((List.range n).map .ofIndex) [] := by
  induction n with
  | zero => exact .empty
  | succ n ih =>
    have more := ih.addCell ⟨0⟩ ⟨0⟩
    simpa [Netlist.addCell, crowd, List.range_succ] using more

theorem length_crowd (n : Nat) : (crowd n).cells.length = n := by
  simp [crowd]

theorem addCell_crowd (n : Nat) (name type : Symbol) :
    ((crowd n).addCell name type).1 = .ofIndex n := by
  simp [Netlist.addCell, crowd]

/-- Once the count has come round, an earlier cell stands under the new handle. -/
theorem cell_addCell_crowd {n : Nat} (full : UInt32.size ≤ n) (name type : Symbol) :
    ((crowd n).addCell name type).2.cell ((crowd n).addCell name type).1 =
      .ok ⟨.ofIndex n, ⟨0⟩, ⟨0⟩, none, .none⟩ := by
  have earlier : n % UInt32.size < n :=
    Nat.lt_of_lt_of_le (Nat.mod_lt n (by decide)) full
  have there : ((crowd n).addCell name type).2.cell? (.ofIndex n) =
      some ⟨.ofIndex n, ⟨0⟩, ⟨0⟩, none, .none⟩ := by
    have same : (Handle.ofIndex (n % UInt32.size) : CellRef) = .ofIndex n :=
      Handle.ofIndex_eq_iff.mpr (Nat.mod_mod n _)
    simp [cell?, Handle.index_ofIndex_mod, Netlist.addCell, crowd,
      List.getElem?_append_left, earlier, same]
  rw [addCell_crowd, cell, there]

theorem not_serves_crowd {n : Nat} (full : UInt32.size - 1 ≤ n) (name type : Symbol) :
    ¬ Serves ((crowd n).addCell name type).1 (· ∈ (List.range n).map .ofIndex)
      (((crowd n).addCell name type).2.cell ((crowd n).addCell name type).1 =
        .ok ⟨((crowd n).addCell name type).1, name, type, none, .none⟩) := by
  rw [((issued_crowd n).allots_cell name type).serves_iff, length_crowd]
  exact Nat.not_lt_of_le full

/-- To a netlist of 2^32 - 1 cells a further one is added under the null handle. To one of 2^32
cells it is added under a handle that was given before, which still leads to the earlier cell. -/
theorem additions_allot_last :
    (crowd (UInt32.size - 1)).Issued ((List.range (UInt32.size - 1)).map .ofIndex) [] ∧
    ((crowd (UInt32.size - 1)).addCell ⟨1⟩ ⟨1⟩).1 = .null ∧
    (crowd UInt32.size).Issued ((List.range UInt32.size).map .ofIndex) [] ∧
    ((crowd UInt32.size).addCell ⟨1⟩ ⟨1⟩).1 ∈ (List.range UInt32.size).map .ofIndex ∧
    ((crowd UInt32.size).addCell ⟨1⟩ ⟨1⟩).2.cell ((crowd UInt32.size).addCell ⟨1⟩ ⟨1⟩).1 =
      .ok ⟨⟨0⟩, ⟨0⟩, ⟨0⟩, none, .none⟩ ∧
    ¬ ∀ m cells nets, Issued m cells nets → ∀ name type,
      Serves (m.addCell name type).1 (· ∈ cells)
        ((m.addCell name type).2.cell (m.addCell name type).1 =
          .ok ⟨(m.addCell name type).1, name, type, none, .none⟩) := by
  have repeated : ((crowd UInt32.size).addCell ⟨1⟩ ⟨1⟩).1 ∈
      (List.range UInt32.size).map .ofIndex :=
    ((issued_crowd _).allots_cell _ _).given_iff.mpr (Nat.le_of_eq (length_crowd _).symm)
  refine ⟨issued_crowd _, addCell_crowd _ _ _, issued_crowd _, repeated,
    cell_addCell_crowd (Nat.le_refl _) _ _, fun serve => ?_⟩
  exact not_serves_crowd (Nat.le_refl _) _ _ (serve _ _ _ (issued_crowd _) ⟨1⟩ ⟨1⟩)

end Netlist

end Fabric
