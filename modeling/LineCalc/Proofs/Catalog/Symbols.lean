import LineCalc.Proofs.Catalog.Codes

/-!
# Symbols beside amounts

Currencies and tokens have symbols that stand beside amounts. None of them has a digit or a minus
sign in it, so in a text that a symbol begins the amount still begins with the first digit.

Results:
1. `mem_symbols_of_ofSymbol?`: what is taken for a symbol is one of the catalog.
2. `symbols_plain`: the characters of symbols.
-/

namespace LineCalc.Denomination

variable {d : Denomination} {symbol : String} {c : Char}

/-- The symbols of the catalog. -/
def symbols : List String := Currency.listed.map Currency.symbol ++ Crypto.symbols

theorem mem_symbols_of_ofSymbol? (h : ofSymbol? symbol = some d) : symbol ∈ symbols := by
  rw [symbols, List.mem_append]
  rcases of_orElse h with h | h
  · obtain ⟨c, found, -⟩ := Option.map_eq_some_iff.mp h
    have same : c.symbol = symbol := by simpa using List.find?_some found
    exact .inl (List.mem_map.mpr ⟨c, List.mem_of_find?_eq_some found, same⟩)
  · obtain ⟨k, found, -⟩ := Option.map_eq_some_iff.mp h
    have same : k.entry.symbol = some symbol := by simpa using List.find?_some found
    exact .inr (List.mem_filterMap.mpr ⟨k, List.mem_of_find?_eq_some found, same⟩)

/-- No symbol has a digit or a minus sign in it. -/
theorem symbols_plain (mem : symbol ∈ symbols) (inside : c ∈ symbol.toList) :
    Text.isDigit c = false ∧ c ≠ '-' := by
  have plain : symbols.all (fun s => s.toList.all fun c => !Text.isDigit c && c != '-') = true := by
    decide +kernel
  have plain := List.all_eq_true.mp (List.all_eq_true.mp plain symbol mem) c inside
  simpa using plain

end LineCalc.Denomination
