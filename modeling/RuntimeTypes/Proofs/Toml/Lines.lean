/-
Documents of `key = word` lines are read back.

A `Line` is written with a key that needs no quotes and a word that is a value, so it can be
taken apart at the first character that belongs to neither: the blank behind the key, and the
line end behind the word.  So each line is read as its statement whatever follows it, and a
document line by line.  The lines may also stand under the header of a table.

Their keys have to be distinct, as a document must not give a key twice.  A key without quotes
is never the one that makes a table stand for a time, so the table of the lines is what it
looks like.
-/
import Mathlib.Data.List.TakeWhile
import RuntimeTypes.Toml.Document

namespace RuntimeTypes

namespace Toml

/-- A key that needs no quotes. -/
structure BareKey (key : String) : Prop where
  nonempty : key.toList ≠ []
  chars : ∀ c ∈ key.toList, isBareKeyChar c = true

theorem bareKey_iff {key : String} :
    BareKey key ↔ key.toList ≠ [] ∧ key.toList.all isBareKeyChar = true := by
  rw [List.all_eq_true]
  exact ⟨fun h => ⟨h.nonempty, h.chars⟩, fun h => ⟨h.1, h.2⟩⟩

instance (key : String) : Decidable (BareKey key) := decidable_of_iff' _ bareKey_iff

/-- A line with a key and a word that is a value. -/
structure Line where
  /-- The key. -/
  key : String
  /-- The word. -/
  word : String
  /-- The value that the word is. -/
  value : Value
  bare : BareKey key
  chars : ∀ c ∈ word.toList, isWordChar c = true
  reads : scalar? word.toList = some value

namespace Line

/-- The line as it is written. -/
def text (l : Line) : List Char :=
  l.key.toList ++ ' ' :: '=' :: ' ' :: (l.word.toList ++ ['\n'])

/-- The line as it is read. -/
def statement (l : Line) : Statement := .pair [l.key] l.value

/-- What the line adds to a table. -/
def entry (l : Line) : String × Value := (l.key, l.value)

end Line

variable {c : Char} {cs word rest : List Char} {key name : String} {v : Value} {es : Entries}

/-! ### Characters -/

/-- A run of characters ends at the first other one. -/
theorem span_append {p : Char → Bool} (hword : ∀ c ∈ word, p c = true)
    (hrest : ∀ c ∈ rest.head?, p c = false) :
    (word ++ rest).takeWhile p = word ∧ (word ++ rest).dropWhile p = rest := by
  rw [List.takeWhile_append_of_pos hword, List.dropWhile_append_of_pos hword]
  cases rest with
  | nil => simp
  | cons c rest => simp [hrest c rfl]

theorem skipBlank_cons (hc : isBlank c = false) : skipBlank (c :: cs) = c :: cs := by
  rw [skipBlank, List.dropWhile_cons_of_neg (by simp [hc])]

theorem skipBlank_space (cs : List Char) : skipBlank (' ' :: cs) = skipBlank cs := rfl

theorem ne_of_kind {p : Char → Bool} {d : Char} (hc : p c = true) (hd : p d = false) : c ≠ d := by
  rintro rfl
  rw [hc] at hd
  cases hd

theorem cons_ne_cons {p : Char → Bool} {d : Char} {ds : List Char} (hc : p c = true)
    (hd : p d = false) : c :: cs ≠ d :: ds :=
  fun h => ne_of_kind hc hd (List.cons.inj h).1

theorem isBlank_of_kind {p : Char → Bool} (hc : p c = true) (hspace : p ' ' = false)
    (htab : p '\t' = false) : isBlank c = false := by
  simp [isBlank, ne_of_kind hc hspace, ne_of_kind hc htab]

theorem isBlank_of_bareKeyChar (hc : isBareKeyChar c = true) : isBlank c = false :=
  isBlank_of_kind hc (by decide) (by decide)

theorem isBlank_of_wordChar (hc : isWordChar c = true) : isBlank c = false :=
  isBlank_of_kind hc (by decide) (by decide)

/-! ### Keys -/

namespace BareKey

theorem exists_cons (h : BareKey key) : ∃ c cs, key.toList = c :: cs ∧ isBareKeyChar c = true := by
  obtain ⟨c, cs, hkey⟩ := List.exists_cons_of_ne_nil h.nonempty
  exact ⟨c, cs, hkey, h.chars c (hkey ▸ List.mem_cons_self)⟩

/-- The key of times is written with quotes. -/
theorem ne_timeKey (h : BareKey key) : key ≠ timeKey := by
  rintro rfl
  exact absurd (h.chars '$' (by decide)) (by decide)

theorem readKeyPart_append (h : BareKey key) (hrest : ∀ c ∈ rest.head?, isBareKeyChar c = false) :
    readKeyPart (key.toList ++ rest) = some (key, rest) := by
  have hspan := span_append h.chars hrest
  have hshort : readShortString (key.toList ++ rest) = none := by
    obtain ⟨c, cs, hkey, hc⟩ := h.exists_cons
    rw [hkey, List.cons_append]
    unfold readShortString
    split
    · rename_i heq
      exact absurd heq (cons_ne_cons hc (by decide))
    · rename_i heq
      exact absurd heq (cons_ne_cons hc (by decide))
    · rfl
  simp [readKeyPart, hshort, hspan, h.nonempty]

theorem readKeyIn_append (h : BareKey key) (fuel : Nat)
    (hrest : ∀ c ∈ rest.head?, isBareKeyChar c = false) (hdot : ∀ cs, skipBlank rest ≠ '.' :: cs) :
    readKeyIn (fuel + 1) (key.toList ++ rest) = some ([key], skipBlank rest) := by
  have hblank : skipBlank (key.toList ++ rest) = key.toList ++ rest := by
    obtain ⟨c, cs, hkey, hc⟩ := h.exists_cons
    rw [hkey, List.cons_append, skipBlank_cons (isBlank_of_bareKeyChar hc)]
  -- Without a dot the key has no further part: that case is closed by `hdot`.
  simp only [readKeyIn, hblank, h.readKeyPart_append hrest, Option.bind_eq_bind, Option.bind_some]

/-- The key is read up to what follows it, and the blanks behind it with it. -/
theorem readKey_append (h : BareKey key) (rest : List Char)
    (hrest : ∀ c ∈ rest.head?, isBareKeyChar c = false) (hdot : ∀ cs, skipBlank rest ≠ '.' :: cs) :
    readKey (key.toList ++ rest) = some ([key], skipBlank rest) :=
  h.readKeyIn_append (nestingLimit - 2) hrest hdot

end BareKey

/-! ### Words -/

theorem finish?_of_scalar? (h : scalar? word = some v) : v.finish? = some v := by
  unfold scalar? at h
  split at h
  · obtain rfl := Option.some.inj h
    rfl
  split at h
  · obtain rfl := Option.some.inj h
    rfl
  split at h
  · obtain rfl := Option.some.inj h
    rfl
  split at h
  · obtain rfl := Option.some.inj h
    rfl
  obtain ⟨n, -, rfl⟩ := Option.map_eq_some_iff.mp h
  rfl

/-- A value is read up to the end of its line. -/
theorem readValue_word (depth : Nat) (hword : ∀ c ∈ word, isWordChar c = true)
    (hv : scalar? word = some v) :
    readValue depth (word ++ '\n' :: rest) = some (v, '\n' :: rest) := by
  have hspan : (word ++ '\n' :: rest).takeWhile isWordChar = word ∧
      (word ++ '\n' :: rest).dropWhile isWordChar = '\n' :: rest :=
    span_append hword (by simp [isWordChar])
  have hscalar : readScalar (word ++ '\n' :: rest) = some (v, '\n' :: rest) := by
    simp [readScalar, hspan, hv]
  cases word with
  | nil => cases hv
  | cons c word =>
      have hc := hword c List.mem_cons_self
      have hleaf : readValue.readLeaf (c :: word ++ '\n' :: rest) = some (v, '\n' :: rest) := by
        unfold readValue.readLeaf
        split
        · rename_i heq
          exact absurd heq (cons_ne_cons hc (by decide))
        · rename_i heq
          exact absurd heq (cons_ne_cons hc (by decide))
        · exact hscalar
      cases depth with
      | zero => exact hleaf
      | succ depth =>
          unfold readValue
          split
          · rename_i heq
            exact absurd heq (cons_ne_cons hc (by decide))
          · rename_i heq
            exact absurd heq (cons_ne_cons hc (by decide))
          · exact hleaf

/-! ### Lines -/

theorem restOfLine?_newline (rest : List Char) : restOfLine? ('\n' :: rest) = some rest := rfl

namespace Line

theorem readPair_append (l : Line) (depth : Nat) (rest : List Char) :
    readPair (readValue depth) (l.text ++ rest) = some (([l.key], l.value), '\n' :: rest) := by
  have hkey := l.bare.readKey_append (' ' :: '=' :: ' ' :: (l.word.toList ++ '\n' :: rest))
    (by simp [isBareKeyChar]) (by
      intro cs hcs
      exact absurd (List.cons.inj hcs).1 (by decide))
  have hblank :
      skipBlank (' ' :: (l.word.toList ++ '\n' :: rest)) = l.word.toList ++ '\n' :: rest := by
    rw [skipBlank_space]
    cases hword : l.word.toList with
    | nil => rfl
    | cons c word =>
        exact skipBlank_cons (isBlank_of_wordChar (l.chars c (hword ▸ List.mem_cons_self)))
  have htext :
      l.text ++ rest = l.key.toList ++ ' ' :: '=' :: ' ' :: (l.word.toList ++ '\n' :: rest) := by
    simp [text]
  have hequals : skipBlank (' ' :: '=' :: ' ' :: (l.word.toList ++ '\n' :: rest))
      = '=' :: ' ' :: (l.word.toList ++ '\n' :: rest) := rfl
  simp [readPair, htext, hkey, hequals, expect, hblank, readValue_word depth l.chars l.reads,
    skipBlank_cons (c := '\n') (by decide)]

theorem statementsIn_append (l : Line) (fuel : Nat) (rest : List Char) :
    statementsIn (fuel + 1) (l.text ++ rest) = (statementsIn fuel rest).map (l.statement :: ·) := by
  have hpair := l.readPair_append (nestingLimit - 1) rest
  obtain ⟨c, key, hkey, hc⟩ := l.bare.exists_cons
  obtain ⟨cs, hcs⟩ : ∃ cs, l.text ++ rest = c :: cs := ⟨_, by rw [text, hkey]; rfl⟩
  rw [hcs] at hpair ⊢
  have hread : readStatement (c :: cs) = some (l.statement, '\n' :: rest) := by
    unfold readStatement
    split
    · rename_i heq
      exact absurd heq (cons_ne_cons hc (by decide))
    · rename_i heq
      exact absurd heq (cons_ne_cons hc (by decide))
    · rw [hpair]
      rfl
  have hplain : ¬(c = '#' ∨ c = '\n' ∨ c = '\r') := by
    have hcomment : c ≠ '#' := ne_of_kind hc (by decide)
    have hnewline : c ≠ '\n' := ne_of_kind hc (by decide)
    have hreturn : c ≠ '\r' := ne_of_kind hc (by decide)
    simp [hcomment, hnewline, hreturn]
  simp only [statementsIn, skipBlank_cons (isBlank_of_bareKeyChar hc), if_neg hplain, hread,
    Option.bind_eq_bind, Option.bind_some, restOfLine?_newline]
  cases statementsIn fuel rest <;> rfl

end Line

/-- The lines as they are written. -/
def linesText (lines : List Line) : List Char := lines.flatMap Line.text

/-- What the lines add to a table. -/
def linesEntries (lines : List Line) : Entries := lines.map Line.entry

theorem statementsIn_lines {fuel : Nat} {lines : List Line} (hfuel : lines.length < fuel) :
    statementsIn fuel (linesText lines) = some (lines.map Line.statement) := by
  induction lines generalizing fuel with
  | nil =>
      match fuel, hfuel with
      | fuel + 1, _ => rfl
  | cons l lines ih =>
      match fuel, hfuel with
      | fuel + 1, hfuel =>
          show statementsIn (fuel + 1) (l.text ++ linesText lines) = _
          rw [l.statementsIn_append, ih (Nat.lt_of_succ_lt_succ hfuel)]
          rfl

/-- The header of a table. -/
def headerText (name : String) : List Char := '[' :: (name.toList ++ [']', '\n'])

theorem BareKey.statementsIn_header (h : BareKey name) (fuel : Nat) (rest : List Char) :
    statementsIn (fuel + 1) (headerText name ++ rest)
      = (statementsIn fuel rest).map (.table [name] :: ·) := by
  have hname := h.readKey_append (']' :: '\n' :: rest) (by simp [isBareKeyChar]) (by
    intro cs hcs
    exact absurd (List.cons.inj hcs).1 (by decide))
  have htext : headerText name ++ rest = '[' :: (name.toList ++ ']' :: '\n' :: rest) := by
    simp [headerText]
  have hread : readStatement ('[' :: (name.toList ++ ']' :: '\n' :: rest))
      = some (.table [name], '\n' :: rest) := by
    unfold readStatement
    split
    · rename_i heq
      obtain ⟨c, cs, hcs, hc⟩ := h.exists_cons
      rw [hcs] at heq
      exact absurd (List.cons.inj heq).2 (cons_ne_cons hc (by decide))
    · rename_i heq
      rw [← (List.cons.inj heq).2, hname]
      rfl
    · rename_i _ hother
      exact absurd rfl (hother _)
  have hplain : ¬('[' = '#' ∨ '[' = '\n' ∨ '[' = '\r') := by decide
  rw [htext]
  simp only [statementsIn, skipBlank_cons (c := '[') (by decide), if_neg hplain, hread,
    Option.bind_eq_bind, Option.bind_some, restOfLine?_newline]
  cases statementsIn fuel rest <;> rfl

/-! ### Tables -/

theorem get?_append_of_ne (hes : es.get? key = none) {other : String} (hother : other ≠ key) :
    Entries.get? (es ++ [(other, v)]) key = none := by
  simp only [Entries.get?, Option.map_eq_none_iff, List.find?_append, Option.or_eq_none_iff]
    at hes ⊢
  exact ⟨hes, by simp [hother]⟩

/-- The lines go to the end of a table that has none of their keys. -/
theorem foldlM_add (d : Entries → Draft)
    (hd : ∀ es key v, Entries.get? es key = none →
      (d es).add (.pair [key] v) = some (d (es ++ [(key, v)])))
    {lines : List Line} (hdistinct : (lines.map Line.key).Nodup) (es : Entries)
    (hnew : ∀ l ∈ lines, Entries.get? es l.key = none) :
    (lines.map Line.statement).foldlM Draft.add (d es) = some (d (es ++ linesEntries lines)) := by
  induction lines generalizing es with
  | nil => simp [linesEntries]
  | cons l lines ih =>
      obtain ⟨hfirst, hdistinct⟩ := List.nodup_cons.mp hdistinct
      have hadd := hd es l.key l.value (hnew l List.mem_cons_self)
      have hrest : ∀ l' ∈ lines, Entries.get? (es ++ [l.entry]) l'.key = none := by
        intro l' hl'
        have hne : l.key ≠ l'.key := by
          intro heq
          exact hfirst (heq ▸ List.mem_map_of_mem hl')
        exact get?_append_of_ne (hnew l' (List.mem_cons_of_mem l hl')) hne
      rw [List.map_cons, List.foldlM_cons, Line.statement, hadd]
      show (lines.map Line.statement).foldlM Draft.add (d (es ++ [l.entry])) = _
      rw [ih hdistinct _ hrest, List.append_assoc]
      rfl

theorem add_pair (hes : es.get? key = none) :
    Draft.add ⟨es, []⟩ (.pair [key] v) = some ⟨es ++ [(key, v)], []⟩ := by
  simp [Draft.add, Entries.edit, Entries.insert, Entries.addPair, hes]

/-- A pair under a header goes to the end of its table. -/
theorem add_pair_under (hes : es.get? key = none) :
    Draft.add ⟨[(name, .table .header es)], [name]⟩ (.pair [key] v)
      = some ⟨[(name, .table .header (es ++ [(key, v)]))], [name]⟩ := by
  have hfound : Entries.get? [(name, .table .header es)] name = some (.table .header es) := by
    simp [Entries.get?]
  simp [Draft.add, Entries.edit, Entries.insert, Entries.addPair, Entries.replace, hfound, hes]

theorem finishEntries?_lines (lines : List Line) :
    finishEntries? (linesEntries lines) = some (linesEntries lines) := by
  induction lines with
  | nil => simp [linesEntries, finishEntries?]
  | cons l lines ih =>
      show finishEntries? ((l.key, l.value) :: linesEntries lines) = _
      simp only [finishEntries?, finish?_of_scalar? l.reads, ih]
      rfl

theorem finish?_lines (lines : List Line) :
    (Value.table .header (linesEntries lines)).finish?
      = some (.table .header (linesEntries lines)) := by
  rw [Value.finish?, finishEntries?_lines]
  match lines with
  | [] => rfl
  | l :: lines => exact if_neg l.bare.ne_timeKey

/-! ### Documents -/

theorem length_lines_le (lines : List Line) : lines.length ≤ (linesText lines).length := by
  induction lines with
  | nil => simp
  | cons l lines ih =>
      simp only [linesText, List.flatMap_cons, List.length_append, List.length_cons, Line.text]
        at ih ⊢
      omega

theorem statements?_eq (h : ∀ rest, cs ≠ '\ufeff' :: rest) :
    statements? cs = statementsIn (cs.length + 1) cs := by
  unfold statements?
  split
  · exact absurd rfl (h _)
  · rfl

theorem linesText_ne_mark (lines : List Line) (rest : List Char) :
    linesText lines ≠ '\ufeff' :: rest := by
  match lines with
  | [] => exact nofun
  | l :: lines =>
      obtain ⟨c, key, hkey, hc⟩ := l.bare.exists_cons
      intro h
      simp only [linesText, List.flatMap_cons, Line.text, hkey, List.cons_append] at h
      exact absurd h (cons_ne_cons hc (by decide))

variable {lines : List Line} {text : String}

/-- **Lines are read back as a table** with their keys and values, in their order. -/
theorem parse?_lines (htext : text.toList = linesText lines)
    (hdistinct : (lines.map Line.key).Nodup) :
    parse? text = some (.table .header (linesEntries lines)) := by
  have hread : statements? text.toList = some (lines.map Line.statement) := by
    rw [htext, statements?_eq (linesText_ne_mark lines)]
    exact statementsIn_lines (Nat.lt_succ_of_le (length_lines_le lines))
  have hfold := foldlM_add (fun es => ⟨es, []⟩) (fun _ _ _ => add_pair) hdistinct [] fun _ _ => rfl
  simp only [parse?, hread, Option.bind_eq_bind, Option.bind_some]
  rw [show ({} : Draft) = ⟨[], []⟩ from rfl, hfold]
  exact finish?_lines lines

/-- **Lines under a header are read back** as the table of that name. -/
theorem parse?_section (hname : BareKey name)
    (htext : text.toList = headerText name ++ linesText lines)
    (hdistinct : (lines.map Line.key).Nodup) :
    parse? text = some (.table .header [(name, .table .header (linesEntries lines))]) := by
  have hlength := length_lines_le lines
  have hread : statements? text.toList = some (.table [name] :: lines.map Line.statement) := by
    rw [htext, statements?_eq (by
      intro rest h
      exact absurd (List.cons.inj h).1 (by decide)), hname.statementsIn_header, statementsIn_lines]
    · rfl
    · rw [List.length_append]
      simp only [headerText, List.length_cons]
      omega
  have hopen : Draft.add {} (.table [name]) = some ⟨[(name, .table .header [])], [name]⟩ := by
    simp [Draft.add, Entries.openTable, Entries.edit, Entries.addHeader, Entries.get?]
  have hfold := foldlM_add (fun es => ⟨[(name, .table .header es)], [name]⟩)
    (fun _ _ _ => add_pair_under) hdistinct [] fun _ _ => rfl
  simp only [parse?, hread, Option.bind_eq_bind, Option.bind_some, List.foldlM_cons, hopen, hfold]
  have hentries : finishEntries? [(name, .table .header (linesEntries lines))]
      = some [(name, .table .header (linesEntries lines))] := by
    simp only [finishEntries?, finish?_lines]
    rfl
  show (Value.table .header [(name, .table .header (linesEntries lines))]).finish? = _
  rw [Value.finish?, hentries]
  exact if_neg hname.ne_timeKey

end Toml

end RuntimeTypes
