import LineCalc.Catalog.Conversion

/-!
# Units of one quantity

Each unit has factors to the others of its quantity, temperatures apart. Whether an amount can be
converted is therefore a matter of what the units measure alone. No two units have the same code.
-/

namespace LineCalc.MeasureUnit

theorem mem_all (u : MeasureUnit) : u ∈ all := by
  cases u <;> decide

set_option maxRecDepth 100000 in
theorem hasFactor_all : all.all (fun u => all.all fun w => u.quantity != w.quantity || u == w ||
    u.quantity == .temperature || (u.factors.lookup w).isSome) = true := by
  decide +kernel

/-- An amount is converted between any two units of one quantity. -/
theorem exists_convert {u w : MeasureUnit} (same : u.quantity = w.quantity) (n : Float) :
    ∃ m, u.convert n w = some m := by
  have factor := List.all_eq_true.mp (List.all_eq_true.mp hasFactor_all u u.mem_all) w w.mem_all
  simp only [same, bne_self_eq_false, Bool.false_or, Bool.or_eq_true, beq_iff_eq] at factor
  rw [convert, if_neg fun different => different same]
  split
  · exact ⟨n, rfl⟩
  · next other =>
    split
    · exact ⟨_, rfl⟩
    · next scale =>
      obtain ⟨x, found⟩ := Option.isSome_iff_exists.mp
        ((factor.resolve_left fun h => h.elim other (same ▸ scale)))
      exact ⟨n * x, by rw [found]; rfl⟩

/-- Only units of different quantities are not converted. -/
theorem convert_eq_none_iff {u w : MeasureUnit} {n : Float} :
    u.convert n w = none ↔ u.quantity ≠ w.quantity := by
  constructor
  · intro none same
    obtain ⟨m, found⟩ := exists_convert same n
    rw [none] at found
    cases found
  · intro different
    rw [convert, if_pos different]

theorem convert_self (u : MeasureUnit) (n : Float) : u.convert n u = some n := by
  rw [convert, if_neg fun different => different rfl, if_pos rfl]

set_option maxRecDepth 100000 in
theorem code_all : all.all (fun u => all.all fun w => u.code != w.code || u == w) = true := by
  decide +kernel

/-- No two units have one code. -/
theorem eq_of_code {u w : MeasureUnit} (same : u.code = w.code) : u = w := by
  have pair := List.all_eq_true.mp (List.all_eq_true.mp code_all u u.mem_all) w w.mem_all
  rw [same, bne_self_eq_false, Bool.false_or, beq_iff_eq] at pair
  exact pair

end LineCalc.MeasureUnit
