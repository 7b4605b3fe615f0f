import Fabric.Device.Edit
import Mathlib.Logic.Relation
/-!
How chips grow. An edit that is carried out appends one entry with a new name or rewrites one row,
and a refused edit leaves the chip as it was (`perform_cases`). What a description adds are such
edits too (`Grows.ofDescription`). So what edits keep holds of every chip that grew
(`Grows.invariant`).
-/

namespace Fabric

/-! ## Additions to a draft -/

namespace Draft

variable (d : Draft)

@[simp] theorem chip_intern (s : String) : (d.intern s).2.chip = d.chip := rfl

@[simp] theorem chip_internOptional (s : Option String) : (d.internOptional s).2.chip = d.chip := by
  cases s <;> rfl

@[simp] theorem chip_internAttributes (attributes : Attributes) :
    (d.internAttributes attributes).2.chip = d.chip := rfl

theorem addSite_cases (name type : String) :
    (∃ d' r, d.addSite name type = .refuse d' r ∧ d'.chip = d.chip) ∨
    ∃ d' row, d.addSite name type = .accept d' (.ofIndex d.chip.sites.length) ∧
      d'.chip = d.chip.appendSite row ∧ row.name = (d.names.intern name).1 ∧
      d.chip.siteByName.contains row.name = false := by
  unfold addSite
  dsimp only
  split
  · exact .inl ⟨_, _, rfl, rfl⟩
  next new =>
    rw [Bool.not_eq_true] at new
    exact .inr ⟨_, _, rfl, rfl, rfl, new⟩

theorem addWire_cases (name : String) (type : Option String) :
    (∃ d' r, d.addWire name type = .refuse d' r ∧ d'.chip = d.chip) ∨
    ∃ d' row, d.addWire name type = .accept d' (.ofIndex d.chip.wires.length) ∧
      d'.chip = d.chip.appendWire row ∧ row.name = (d.names.intern name).1 ∧
      d.chip.wireByName.contains row.name = false ∧ row.uphill = [] ∧ row.downhill = [] := by
  unfold addWire
  dsimp only
  split
  · exact .inl ⟨_, _, rfl, rfl⟩
  next new =>
    rw [Bool.not_eq_true] at new
    have kept : ((d.intern name).2.internOptional type).2.chip = d.chip := by simp
    rw [kept]
    exact .inr ⟨_, _, rfl, rfl, rfl, new, rfl, rfl⟩

theorem addPip_cases (name : String) (source target : Wire) :
    (∃ d' r, d.addPip name source target = .refuse d' r ∧ d'.chip = d.chip) ∨
    ∃ d' row, d.addPip name source target = .accept d' (.ofIndex d.chip.pips.length) ∧
      d'.chip = d.chip.appendPip row ∧ row.name = (d.names.intern name).1 ∧
      d.chip.pipByName.contains row.name = false ∧
      row.source.index < d.chip.wires.length ∧ row.target.index < d.chip.wires.length := by
  unfold addPip
  dsimp only
  split
  · exact .inl ⟨_, _, rfl, rfl⟩
  next new =>
    split
    · exact .inl ⟨_, _, rfl, rfl⟩
    next source_inside =>
      split
      · exact .inl ⟨_, _, rfl, rfl⟩
      next target_inside =>
        rw [Bool.not_eq_true] at new
        exact .inr ⟨_, ⟨_, _, source, target, _⟩, rfl, rfl, rfl, new,
          Nat.lt_of_not_le source_inside, Nat.lt_of_not_le target_inside⟩

/-! ## Patches of a draft -/

/-- A patch leaves the name of a site alone. -/
theorem exists_patchSite (s : Site) (hidden globalBuffer : Bool) (given : Attributes) :
    ∃ f : Chip.SiteRow → Chip.SiteRow, (∀ row, (f row).name = row.name) ∧
      (d.patchSite s hidden globalBuffer given).map (·.chip) = d.chip.patchSite s f := by
  refine ⟨fun row => { row with hidden, globalBuffer, attributes := (d.internAttributes given).1 },
    fun _ => rfl, ?_⟩
  unfold patchSite
  dsimp only
  rw [chip_internAttributes]
  cases d.chip.patchSite s _ <;> rfl

/-- A patch leaves the name of a wire and its lists of pips alone. -/
theorem exists_patchWire (w : Wire) (given : Attributes) :
    ∃ f : Chip.WireRow → Chip.WireRow,
      (∀ row, (f row).name = row.name ∧ (f row).uphill = row.uphill ∧
        (f row).downhill = row.downhill) ∧
      (d.patchWire w given).map (·.chip) = d.chip.patchWire w f := by
  refine ⟨fun row => { row with attributes := (d.internAttributes given).1 },
    fun _ => ⟨rfl, rfl, rfl⟩, ?_⟩
  unfold patchWire
  dsimp only
  rw [chip_internAttributes]
  cases d.chip.patchWire w _ <;> rfl

/-- A patch leaves the name of a pip and its ends alone. -/
theorem exists_patchPip (p : Pip) (type : Option String) (given : Attributes) :
    ∃ f : Chip.PipRow → Chip.PipRow,
      (∀ row, (f row).name = row.name ∧ (f row).source = row.source ∧
        (f row).target = row.target) ∧
      (d.patchPip p type given).map (·.chip) = d.chip.patchPip p f := by
  refine ⟨fun row => { row with
      type := (d.internOptional type).1
      attributes := ((d.internOptional type).2.internAttributes given).1 },
    fun _ => ⟨rfl, rfl, rfl⟩, ?_⟩
  unfold patchPip
  dsimp only
  rw [chip_internAttributes, chip_internOptional]
  cases d.chip.patchPip p _ <;> rfl

end Draft

namespace Chip

/-! ## Edits -/

/-- What an edit that is carried out replies and makes of the chip. -/
inductive Edited (c : Chip) : Edit → Reply → Chip → Prop
  | addSite {names name type row} (named : row.name = (names.intern name).1)
      (new : c.siteByName.contains row.name = false) :
      Edited c (.addSite names name type) (.site (.ofIndex c.sites.length)) (c.appendSite row)
  | addWire {names name type row} (named : row.name = (names.intern name).1)
      (new : c.wireByName.contains row.name = false) (uphill : row.uphill = [])
      (downhill : row.downhill = []) :
      Edited c (.addWire names name type) (.wire (.ofIndex c.wires.length)) (c.appendWire row)
  | addPip {names name source target row} (named : row.name = (names.intern name).1)
      (new : c.pipByName.contains row.name = false)
      (source_inside : row.source.index < c.wires.length)
      (target_inside : row.target.index < c.wires.length) :
      Edited c (.addPip names name source target) (.pip (.ofIndex c.pips.length)) (c.appendPip row)
  | setHidden {s row} (there : c.site? s = some row) (hidden : Bool) :
      Edited c (.setHidden s hidden) .done
        { c with sites := c.sites.set s.index { row with hidden } }
  | setGlobalBuffer {s row} (there : c.site? s = some row) (globalBuffer : Bool) :
      Edited c (.setGlobalBuffer s globalBuffer) .done
        { c with sites := c.sites.set s.index { row with globalBuffer } }
  | patchSite {names s hidden globalBuffer attributes f} (name : ∀ row, (f row).name = row.name) :
      Edited c (.patchSite names s hidden globalBuffer attributes) .done
        { c with sites := c.sites.modify s.index f }
  | patchWire {names w attributes f}
      (same : ∀ row, (f row).name = row.name ∧ (f row).uphill = row.uphill ∧
        (f row).downhill = row.downhill) :
      Edited c (.patchWire names w attributes) .done { c with wires := c.wires.modify w.index f }
  | patchPip {names p type attributes f}
      (same : ∀ row, (f row).name = row.name ∧ (f row).source = row.source ∧
        (f row).target = row.target) :
      Edited c (.patchPip names p type attributes) .done { c with pips := c.pips.modify p.index f }

theorem setHidden_cases (c : Chip) (s : Site) (hidden : Bool) :
    (∃ r, c.setHidden s hidden = .error r) ∨ ∃ row, c.site? s = some row ∧
      c.setHidden s hidden = .ok { c with sites := c.sites.set s.index { row with hidden } } := by
  unfold setHidden site
  cases there : c.site? s with
  | none => exact .inl ⟨_, rfl⟩
  | some row => exact .inr ⟨row, rfl, rfl⟩

theorem setGlobalBuffer_cases (c : Chip) (s : Site) (globalBuffer : Bool) :
    (∃ r, c.setGlobalBuffer s globalBuffer = .error r) ∨ ∃ row, c.site? s = some row ∧
      c.setGlobalBuffer s globalBuffer =
        .ok { c with sites := c.sites.set s.index { row with globalBuffer } } := by
  unfold setGlobalBuffer site
  cases there : c.site? s with
  | none => exact .inl ⟨_, rfl⟩
  | some row => exact .inr ⟨row, rfl, rfl⟩

theorem rewrite_cases {ρ : Type} (rows : List ρ) (i : Nat) (f : ρ → ρ) :
    (∃ r, rewrite rows i f = .error r) ∨ rewrite rows i f = .ok (rows.modify i f) := by
  unfold rewrite
  split
  · exact .inr rfl
  · exact .inl ⟨_, rfl⟩

/-- A patch of a table is refused, or the chip gets the rewritten table. -/
theorem changed_rewrite_cases (c : Chip) {ρ : Type} (rows : List ρ) (i : Nat) (f : ρ → ρ)
    (put : List ρ → Chip) :
    (∃ r, c.changed ((rewrite rows i f).map put) = .refuse c r) ∨
      c.changed ((rewrite rows i f).map put) = .accept (put (rows.modify i f)) .done := by
  rcases rewrite_cases rows i f with ⟨r, refused⟩ | run
  · exact .inl ⟨.refusal r, by rw [refused]; rfl⟩
  · exact .inr (by rw [run]; rfl)

/-- An edit is carried out, or it is refused and leaves the chip as it was. -/
theorem perform_cases (c : Chip) (edit : Edit) :
    (∃ r, c.perform edit = .refuse c r) ∨
    ∃ reply c', c.perform edit = .accept c' reply ∧ Edited c edit reply c' := by
  cases edit with
  | addSite names name type =>
    rcases (⟨names, c⟩ : Draft).addSite_cases name type with
      ⟨d', r, run, same⟩ | ⟨d', row, run, grown, named, new⟩
    · exact .inl ⟨.entry r, by simp [perform, added, run, Outcome.refuse, same]⟩
    · refine .inr ⟨_, _, ?_, .addSite named new⟩
      simp [perform, added, run, Outcome.accept, grown]
  | addWire names name type =>
    rcases (⟨names, c⟩ : Draft).addWire_cases name type with
      ⟨d', r, run, same⟩ | ⟨d', row, run, grown, named, new, uphill, downhill⟩
    · exact .inl ⟨.entry r, by simp [perform, added, run, Outcome.refuse, same]⟩
    · refine .inr ⟨_, _, ?_, .addWire named new uphill downhill⟩
      simp [perform, added, run, Outcome.accept, grown]
  | addPip names name source target =>
    rcases (⟨names, c⟩ : Draft).addPip_cases name source target with
      ⟨d', r, run, same⟩ | ⟨d', row, run, grown, named, new, source_inside, target_inside⟩
    · exact .inl ⟨.entry r, by simp [perform, added, run, Outcome.refuse, same]⟩
    · refine .inr ⟨_, _, ?_, .addPip named new source_inside target_inside⟩
      simp [perform, added, run, Outcome.accept, grown]
  | setHidden s hidden =>
    rcases c.setHidden_cases s hidden with ⟨r, refused⟩ | ⟨row, there, set⟩
    · exact .inl ⟨.refusal r, by simp [perform, changed, refused]⟩
    · exact .inr ⟨_, _, by rw [perform, set, changed], .setHidden there hidden⟩
  | setGlobalBuffer s globalBuffer =>
    rcases c.setGlobalBuffer_cases s globalBuffer with ⟨r, refused⟩ | ⟨row, there, set⟩
    · exact .inl ⟨.refusal r, by simp [perform, changed, refused]⟩
    · exact .inr ⟨_, _, by rw [perform, set, changed], .setGlobalBuffer there globalBuffer⟩
  | patchSite names s hidden globalBuffer attributes =>
    obtain ⟨f, name, patch⟩ :=
      (⟨names, c⟩ : Draft).exists_patchSite s hidden globalBuffer attributes
    rw [perform, patch]
    exact (c.changed_rewrite_cases ..).imp_right fun run => ⟨_, _, run, .patchSite name⟩
  | patchWire names w attributes =>
    obtain ⟨f, same, patch⟩ := (⟨names, c⟩ : Draft).exists_patchWire w attributes
    rw [perform, patch]
    exact (c.changed_rewrite_cases ..).imp_right fun run => ⟨_, _, run, .patchWire same⟩
  | patchPip names p type attributes =>
    obtain ⟨f, same, patch⟩ := (⟨names, c⟩ : Draft).exists_patchPip p type attributes
    rw [perform, patch]
    exact (c.changed_rewrite_cases ..).imp_right fun run => ⟨_, _, run, .patchPip same⟩

theorem edited_of_answer {c : Chip} {edit : Edit} {reply : Reply}
    (h : (c.perform edit).answer = .ok reply) : Edited c edit reply (c.perform edit).state := by
  rcases c.perform_cases edit with ⟨r, refused⟩ | ⟨reply', c', run, edited⟩
  · rw [refused] at h
    cases h
  · rw [run] at h ⊢
    cases h
    exact edited

theorem state_of_refused {c : Chip} {edit : Edit} {r : Rejection}
    (h : (c.perform edit).answer = .error r) : (c.perform edit).state = c := by
  rcases c.perform_cases edit with ⟨r', refused⟩ | ⟨reply, c', run, _⟩
  · rw [refused]
    rfl
  · rw [run] at h
    cases h

/-! ## Growing -/

/-- The second chip comes from the first by edits. -/
def Grows : Chip → Chip → Prop :=
  Relation.ReflTransGen fun c c' => ∃ edit reply, Edited c edit reply c'

namespace Grows

variable {c c' c'' : Chip}

theorem refl (c : Chip) : Grows c c := Relation.ReflTransGen.refl

theorem trans (h : Grows c c') (h' : Grows c' c'') : Grows c c'' :=
  Relation.ReflTransGen.trans h h'

theorem step {edit : Edit} {reply : Reply} (h : Grows c c') (h' : Edited c' edit reply c'') :
    Grows c c'' :=
  Relation.ReflTransGen.tail h ⟨edit, reply, h'⟩

/-- What edits keep holds of a chip that grew. -/
theorem invariant {P : Chip → Prop} (h : Grows c c') (start : P c)
    (edited : ∀ {c c' edit reply}, P c → Edited c edit reply c' → P c') : P c' := by
  induction h with
  | refl => exact start
  | tail _ last ih =>
    obtain ⟨edit, reply, h'⟩ := last
    exact edited ih h'

theorem perform (c : Chip) (edit : Edit) : Grows c (c.perform edit).state := by
  rcases c.perform_cases edit with ⟨r, refused⟩ | ⟨reply, c', run, edited⟩
  · rw [refused]
    exact refl c
  · rw [run]
    exact (refl c).step edited

theorem run (c : Chip) (edits : List Edit) : Grows c (c.run edits) := by
  induction edits generalizing c with
  | nil => exact refl c
  | cons edit edits ih => exact (perform c edit).trans (ih _)

theorem addSite (d : Draft) (name type : String) :
    Grows d.chip (d.addSite name type).state.chip := by
  have edit := perform d.chip (.addSite d.names name type)
  rwa [Chip.perform, state_added] at edit

theorem addWire (d : Draft) (name : String) (type : Option String) :
    Grows d.chip (d.addWire name type).state.chip := by
  have edit := perform d.chip (.addWire d.names name type)
  rwa [Chip.perform, state_added] at edit

theorem addPip (d : Draft) (name : String) (source target : Wire) :
    Grows d.chip (d.addPip name source target).state.chip := by
  have edit := perform d.chip (.addPip d.names name source target)
  rwa [Chip.perform, state_added] at edit

theorem setHidden {s : Site} {hidden : Bool} (h : c.setHidden s hidden = .ok c') : Grows c c' := by
  have edit := perform c (.setHidden s hidden)
  rwa [Chip.perform, h] at edit

theorem setGlobalBuffer {s : Site} {globalBuffer : Bool}
    (h : c.setGlobalBuffer s globalBuffer = .ok c') : Grows c c' := by
  have edit := perform c (.setGlobalBuffer s globalBuffer)
  rwa [Chip.perform, h] at edit

section
variable {d d' : Draft}

theorem patchSite {s : Site} {hidden globalBuffer : Bool} {given : Attributes}
    (h : d.patchSite s hidden globalBuffer given = .ok d') : Grows d.chip d'.chip := by
  have edit := perform d.chip (.patchSite d.names s hidden globalBuffer given)
  rwa [Chip.perform, h] at edit

theorem patchWire {w : Wire} {given : Attributes} (h : d.patchWire w given = .ok d') :
    Grows d.chip d'.chip := by
  have edit := perform d.chip (.patchWire d.names w given)
  rwa [Chip.perform, h] at edit

theorem patchPip {p : Pip} {type : Option String} {given : Attributes}
    (h : d.patchPip p type given = .ok d') : Grows d.chip d'.chip := by
  have edit := perform d.chip (.patchPip d.names p type given)
  rwa [Chip.perform, h] at edit

theorem patched {η : Type} {patch : Draft → η → Except Refusal Draft}
    {o : Outcome EntryError Draft η} (first : Grows d.chip o.state.chip)
    (second : ∀ {d d' : Draft} {h : η}, patch d h = .ok d' → Grows d.chip d'.chip)
    (h : Draft.patched patch o = .ok d') : Grows d.chip d'.chip := by
  unfold Draft.patched at h
  split at h
  · cases h
  next handle d₁ =>
    cases run : patch d₁ handle with
    | error r =>
      rw [run] at h
      cases h
    | ok d₂ =>
      rw [run] at h
      cases h
      exact first.trans (second run)

theorem foldlM {α : Type} {enter : Draft → α → Except BuildFailure Draft}
    (one : ∀ {d d' a}, enter d a = .ok d' → Grows d.chip d'.chip) {l : List α}
    (h : l.foldlM enter d = .ok d') : Grows d.chip d'.chip := by
  induction l generalizing d with
  | nil =>
    cases h
    exact refl _
  | cons a l ih =>
    rw [List.foldlM_cons] at h
    obtain ⟨d₁, first, rest⟩ := bind_eq_ok_iff_exists.mp h
    exact (one first).trans (ih rest)

end

/-- A described chip grows from a blank one of its family and name. -/
theorem ofDescription {names : Interner} {description : Description} {d : Draft}
    (h : Draft.ofDescription names description = .ok d) :
    Grows { Chip.blank description.name with family := description.family } d.chip := by
  obtain ⟨ends, _, h⟩ := bind_eq_ok_iff_exists.mp h
  obtain ⟨sited, sites, h⟩ := bind_eq_ok_iff_exists.mp h
  obtain ⟨wired, wires, pips⟩ := bind_eq_ok_iff_exists.mp h
  have sites := foldlM (.patched (addSite _ _ _) .patchSite) sites
  have wires := foldlM (.patched (addWire _ _ _) .patchWire) wires
  have pips := foldlM (.patched (addPip _ _ _ _) .patchPip) pips
  exact sites.trans (wires.trans pips)

theorem family_eq (h : Grows c c') : c'.family = c.family := by
  refine h.invariant (P := fun c' => c'.family = c.family) rfl ?_
  intro c₁ c₂ edit reply same edited
  cases edited <;> exact same

theorem name_eq (h : Grows c c') : c'.name = c.name := by
  refine h.invariant (P := fun c' => c'.name = c.name) rfl ?_
  intro c₁ c₂ edit reply same edited
  cases edited <;> exact same

end Grows

end Chip

end Fabric
