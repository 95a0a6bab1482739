import NumScript.Proofs.Settings.Sheet
import NumScript.Settings.Printer
import NumScript.Settings.Reading

/-! Settings survive being written and read, whatever YAML library does both, as long as it decodes
the scalars that it has encoded. Every setting stands in the text, so that no default takes its
place. -/

namespace NumScript.Settings

open Yaml (Printable)

variable {s : Settings}

/-! ### Rules -/

/-- What the rules demand. -/
structure Obeys (s : Settings) : Prop where
  scoping : (Scoping.ofName? s.scoping).isSome = true
  maxIterations : 0 ≤ s.maxIterations
  optimizeRounds : 1 ≤ s.optimizeRounds
  address : isHostPort s.playground.address = true
  cacheSize : 0 ≤ s.playground.cacheSize
  maxBodyBytes : 0 < s.playground.maxBodyBytes

theorem obeys_of_isValid (valid : s.isValid = true) : s.Obeys := by
  simp only [isValid, issues, List.isEmpty_iff, List.append_eq_nil_iff, ite_eq_right_iff,
    List.cons_ne_nil, imp_false, Bool.not_eq_true, Bool.not_eq_false', Int.not_lt, Int.not_le]
    at valid
  obtain ⟨⟨⟨⟨⟨scoping, iterations⟩, rounds⟩, address⟩, cache⟩, body⟩ := valid
  exact ⟨by simpa using scoping, iterations, rounds, address, cache, body⟩

/-- The name of a scoping mode is printable. -/
theorem printable_of_ofName? {name : Text} (known : (Scoping.ofName? name).isSome = true) :
    Printable name := by
  have member : name ∈ [[], Text.ofString "chain", Text.ofString "copy"] := by
    rw [Scoping.ofName?] at known
    split at known
    · next chain =>
      simp only [Bool.or_eq_true, List.isEmpty_iff, decide_eq_true_eq] at chain
      obtain rfl | rfl := chain <;> simp
    · split at known
      · next copy => simp [copy]
      · cases known
  have each : ∀ name ∈ [[], Text.ofString "chain", Text.ofString "copy"], ∀ b ∈ name,
      Text.isPrintableByte b = true := by decide +kernel
  exact each name member

/-- No integer among the settings is too large for 64 bits; below, the rules bound them more
closely. -/
structure Bounded (s : Settings) : Prop where
  maxIterations : s.maxIterations < 0x8000000000000000
  optimizeRounds : s.optimizeRounds < 0x8000000000000000
  cacheSize : s.playground.cacheSize < 0x8000000000000000
  maxBodyBytes : s.playground.maxBodyBytes < 0x8000000000000000

/-- The values of settings that obey the rules are plain. -/
theorem Obeys.plain (obeys : s.Obeys) (bounded : s.Bounded)
    (address : Printable s.playground.address) : schema.Plain s :=
  plain_iff.mpr ⟨printable_of_ofName? obeys.scoping,
    ⟨obeys.maxIterations, bounded.maxIterations⟩,
    ⟨Int.le_trans (by decide) obeys.optimizeRounds, bounded.optimizeRounds⟩, address,
    ⟨obeys.cacheSize, bounded.cacheSize⟩, Int.le_of_lt obeys.maxBodyBytes, bounded.maxBodyBytes⟩

/-! ### Reading -/

theorem validate_of_isValid (valid : s.isValid = true) : s.validate = .ok s := by
  rw [validate, List.isEmpty_iff.mp valid]

/-- Settings that differ from the defaults throughout, with values that are easily mistaken: no name
for the scoping, zeros, and an address that older readers took for a number in base sixty. -/
def mistakable : Settings where
  path := "settings.yml"
  scoping := ""
  maxIterations := 0
  optimize := false
  optimizeRounds := 1
  analyze := false
  warningsAsErrors := true
  color := false
  playground := { address := "12:30", cacheSize := 0, maxBodyBytes := 1 }

end NumScript.Settings
