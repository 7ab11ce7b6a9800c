/-
Options survive being written as TOML.

Options are written as lines, each of a setting that has a value, and they are read from what
those lines add to a table.  Two things have to cancel out on the way: a setting without a
value has no line, and a setting without a line keeps its standard value.  So it does not
matter which lines there are, only that each says what its setting is.

Reading ends with the check, which is about the options alone, so options that pass it come
back and the others are refused for the reason that the check gives.
-/
import RuntimeTypes.OptionsFile
import RuntimeTypes.Proofs.Toml.Numbers
import RuntimeTypes.Proofs.Toml.Lines

namespace RuntimeTypes

namespace Options

open Toml

/-- The numbers of the options are below the limit of TOML. -/
structure Storable (o : Options) : Prop where
  handles : ∀ n ∈ o.handleLimit, n < integerLimit
  wait : ∀ m ∈ o.waitMillis, m.toNat < integerLimit

theorem Storable.waitNat {o : Options} (h : o.Storable) :
    ∀ n ∈ o.waitMillis.map UInt64.toNat, n < integerLimit := by
  intro n hn
  obtain ⟨m, hm, rfl⟩ := Option.map_eq_some_iff.mp hn
  exact h.wait m hm

/-! ### What is written -/

/-- The line of a number. -/
def numberLine (key : String) (bare : BareKey key) (n : Nat) (hn : n < integerLimit) : Line where
  key := key
  word := Nat.repr n
  value := .integer n
  bare := bare
  chars := by
    intro c hc
    have hdigit : c.isDigit = true := allDigits_toDigits n c (by rwa [Nat.toList_repr] at hc)
    simp [isWordChar, Char.isAlphanum, hdigit]
  reads := by
    rw [Nat.toList_repr]
    exact scalar?_toDigits hn

/-- The lines of a number that may be missing. -/
def numberLines (key : String) (bare : BareKey key) : (n? : Option Nat) →
    (∀ n ∈ n?, n < integerLimit) → List Line
  | none, _ => []
  | some n, hn => [numberLine key bare n (hn n rfl)]

/-- The line of a truth value. -/
def truthLine (key : String) (bare : BareKey key) (b : Bool) : Line where
  key := key
  word := if b then "true" else "false"
  value := .boolean b
  bare := bare
  chars := List.all_eq_true.mp (by cases b <;> rfl)
  reads := by cases b <;> rfl

variable {o : Options}

/-- The lines of the options. -/
def lines (o : Options) (h : o.Storable) : List Line :=
  numberLines "max_handles" (by decide) o.handleLimit h.handles ++
  numberLines "scope_timeout_ms" (by decide) (o.waitMillis.map UInt64.toNat) h.waitNat ++
  [truthLine "dedup_unloaded" (by decide) o.sharePlaceholders,
    truthLine "verify_hierarchy" (by decide) o.verifyRecords]

theorem toList_lineText (l : Line) : (lineText l.key l.word).toList = l.text := by
  simp [lineText, Line.text]

theorem toList_flagLine (key : String) (bare : BareKey key) (b : Bool) :
    (flagLine key b).toList = (truthLine key bare b).text :=
  toList_lineText (truthLine key bare b)

theorem numberLine?_eq (key : String) (bare : BareKey key) (n? : Option Nat)
    (hn : ∀ n ∈ n?, n < integerLimit) :
    ∃ text, numberLine? key n? = some text ∧
      text.toList = linesText (numberLines key bare n? hn) := by
  cases n? with
  | none => exact ⟨"", rfl, rfl⟩
  | some n =>
      refine ⟨lineText key (Nat.repr n), if_pos (hn n rfl), ?_⟩
      simpa [linesText, numberLines, numberLine] using
        toList_lineText (numberLine key bare n (hn n rfl))

theorem exists_toToml? (h : o.Storable) :
    ∃ text, o.toToml? = some text ∧ text.toList = linesText (o.lines h) := by
  obtain ⟨handles, hhandles, hhandlesText⟩ :=
    numberLine?_eq "max_handles" (by decide) o.handleLimit h.handles
  obtain ⟨timeout, htimeout, htimeoutText⟩ :=
    numberLine?_eq "scope_timeout_ms" (by decide) (o.waitMillis.map UInt64.toNat) h.waitNat
  have hwritten : o.toToml? = some (handles ++ timeout
      ++ flagLine "dedup_unloaded" o.sharePlaceholders
      ++ flagLine "verify_hierarchy" o.verifyRecords) := by
    simp only [toToml?, hhandles, htimeout, Option.bind_eq_bind, Option.bind_some]
  refine ⟨_, hwritten, ?_⟩
  have hdedup := toList_flagLine "dedup_unloaded" (by decide) o.sharePlaceholders
  have hverify := toList_flagLine "verify_hierarchy" (by decide) o.verifyRecords
  simp only [String.toList_append, hhandlesText, htimeoutText, hdedup, hverify]
  simp [linesText, lines]

/-! ### What is read -/

theorem nodup_lines (h : o.Storable) : ((o.lines h).map Line.key).Nodup := by
  obtain ⟨handleLimit, waitMillis, share, verify⟩ := o
  cases handleLimit <;> cases waitMillis <;>
    simp [lines, numberLines, numberLine, truthLine]

theorem ofEntries?_lines (h : o.Storable) : ofEntries? (linesEntries (o.lines h)) = some o := by
  obtain ⟨handleLimit, waitMillis, share, verify⟩ := o
  cases handleLimit <;> cases waitMillis <;>
    simp [ofEntries?, ofSettings?, setting, natural?, millis?, flag?, linesEntries, lines,
      numberLines, numberLine, truthLine, Line.entry, Entries.get?]

theorem get?_section_lines (h : o.Storable) :
    Entries.get? (linesEntries (o.lines h)) "oracle" = none := by
  obtain ⟨handleLimit, waitMillis, share, verify⟩ := o
  cases handleLimit <;> cases waitMillis <;>
    simp [linesEntries, lines, numberLines, numberLine, truthLine, Line.entry, Entries.get?]

theorem ofDocument?_lines (h : o.Storable) :
    ofDocument? (.table .header (linesEntries (o.lines h))) = some o := by
  rw [ofDocument?, get?_section_lines h]
  exact ofEntries?_lines h

theorem ofDocument?_section (h : o.Storable) :
    ofDocument? (.table .header [("oracle", .table .header (linesEntries (o.lines h)))]) = some o :=
  ofEntries?_lines h

/-- Options that have been read still have to pass the check. -/
theorem ofToml_eq {text : String} {v : Value} (hparse : parse? text = some v)
    (hread : ofDocument? v = some o) : ofToml text = (do o.check; .ok o) := by
  simp [ofToml, hparse, hread]

theorem exists_fault {e : OptionsError} (h : o.check = .error e) : ∃ fault, e = .invalid fault := by
  unfold check at h
  split at h
  · exact ⟨.zeroHandles, (Except.error.inj h).symm⟩
  · split at h
    · exact ⟨.zeroTimeout, (Except.error.inj h).symm⟩
    · cases h

/-- **Options survive being written and read**, as a document or under a header of their own: they
come back if they pass the check, and otherwise they are refused for the reason that the check
gives. -/
theorem ofToml_toToml? (h : o.Storable) :
    ∃ text, o.toToml? = some text ∧
      (o.check = .ok () → ofToml text = .ok o ∧ ofToml ("[oracle]\n" ++ text) = .ok o) ∧
      ∀ e, o.check = .error e → (∃ fault, e = .invalid fault) ∧
        ofToml text = .error e ∧ ofToml ("[oracle]\n" ++ text) = .error e := by
  obtain ⟨text, hwritten, htext⟩ := exists_toToml? h
  have hsection : ("[oracle]\n" ++ text).toList = headerText "oracle" ++ linesText (o.lines h) := by
    rw [String.toList_append, htext]
    rfl
  have hread := ofToml_eq (parse?_lines htext (nodup_lines h)) (ofDocument?_lines h)
  have hreadSection := ofToml_eq (parse?_section (by decide) hsection (nodup_lines h))
    (ofDocument?_section h)
  refine ⟨text, hwritten, ?_, ?_⟩
  · intro hcheck
    rw [hread, hreadSection, hcheck]
    exact ⟨rfl, rfl⟩
  · intro e hcheck
    rw [hread, hreadSection, hcheck]
    exact ⟨exists_fault hcheck, rfl, rfl⟩

/-- Options with the largest number of handles that TOML holds. -/
def mostHandles : Options :=
  { handleLimit := some 9223372036854775807, waitMillis := some 250, sharePlaceholders := false }

theorem ofToml_toToml?_mostHandles : mostHandles.Storable ∧ mostHandles.check = .ok () ∧
    ∃ text, mostHandles.toToml? = some text ∧ ofToml text = .ok mostHandles ∧
      ofToml ("[oracle]\n" ++ text) = .ok mostHandles := by
  have hstorable : mostHandles.Storable := by
    constructor
    · intro n hn
      obtain rfl := Option.some.inj hn
      decide
    · intro m hm
      obtain rfl := Option.some.inj hm
      decide
  obtain ⟨text, hwritten, hread, -⟩ := ofToml_toToml? hstorable
  exact ⟨hstorable, rfl, text, hwritten, hread rfl⟩

end Options

end RuntimeTypes
