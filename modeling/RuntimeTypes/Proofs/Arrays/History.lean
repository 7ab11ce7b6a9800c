/-
Arrays of a program that removes nothing and names nothing but arrays like arrays.

A request for an array adds arrays and nothing else, so what is in the table beyond what
was there before are the arrays it made, each with the interfaces of the request.  An
operation carries the orderly table on with those (`Ran.orderly`), and what a request
has answered with is found as the array of its element ever after (`Kept`).
-/
import RuntimeTypes.Proofs.Arrays.Making
import RuntimeTypes.Proofs.History

namespace RuntimeTypes

namespace ClassTable

open Relation

/-! ### Operations -/

/-- The classes that the second table has beyond the first, with the interfaces of the request that
has made them. -/
def arraysSince (t t' : ClassTable) (interfaces : List Identity) : ArrayLog :=
  (List.range' t.entries.size (t'.entries.size - t.entries.size)).map fun i =>
    (Identity.ofIndex i, interfaces)

/-- The arrays that an operation has made. -/
def Op.arraysMade (t t' : ClassTable) : Op → ArrayLog
  | .arrayOf _ interfaces => t.arraysSince t' interfaces
  | _ => []

section

variable {t t' : ClassTable} {made : ArrayLog} {log : LoadLog} {interfaces : List Identity}

@[simp] theorem arraysSince_self (t : ClassTable) (interfaces : List Identity) :
    t.arraysSince t interfaces = [] := by
  simp [arraysSince]

theorem Op.arraysMade_self (t : ClassTable) (op : Op) : op.arraysMade t t = [] := by
  cases op <;> simp [Op.arraysMade]

/-- One entry more. -/
theorem arraysSince_add (h : t.entries.size ≤ t'.entries.size) (entry : ClassObject) :
    t.arraysSince (t'.add entry) interfaces
      = t.arraysSince t' interfaces ++ [(t'.freshId, interfaces)] := by
  obtain ⟨n, hn⟩ := Nat.exists_eq_add_of_le h
  have hfresh : t'.freshId = Identity.ofIndex (t.entries.size + n) := by
    rw [← hn]
    rfl
  simp only [arraysSince, size_add, hfresh]
  rw [hn, Nat.add_sub_cancel_left, Nat.add_assoc, Nat.add_sub_cancel_left, List.range'_1_concat]
  simp

/-- In a table that only grows, the live bodies are the archive. -/
theorem Chronicle.live_of_gains {A : Archive} (hc : Chronicle A log t')
    (hg : Archive.Within t.bodyAt? t'.bodyAt?) (hA : Archive.Gains t.bodyAt? t'.bodyAt? A) :
    Chronicle t'.bodyAt? log t' := by
  rw [hA.eq hg hc.live] at hc
  exact hc

/-- What is carried along while arrays are made. -/
structure ArraysAdded (t : ClassTable) (made : ArrayLog) (log : LoadLog)
    (interfaces : List Identity) (t' : ClassTable) : Prop where
  size : t.entries.size ≤ t'.entries.size
  grows : Grows t t'
  sound : t'.Sound
  chronicle : Chronicle t'.bodyAt? log t'
  orderly : t'.Orderly (made ++ t.arraysSince t' interfaces)

theorem ArraysAdded.step {t'' : ClassTable} (h : t.ArraysAdded made log interfaces t')
    (hm : ArrayMove interfaces t' t'') : t.ArraysAdded made log interfaces t'' := by
  obtain ⟨A, hA, hc⟩ := hm.chronicle h.chronicle
  have hwithin := hm.within
  obtain ⟨element, hmove⟩ := hm
  have hsound := hmove.sound h.sound
  cases hmove with
  | array _ _ plan chain secondary hmakes =>
      refine ⟨?_, h.grows.trans (.add _ hmakes.unused), hsound, hc.live_of_gains hwithin hA, ?_⟩
      · rw [size_add]
        exact Nat.le_succ_of_le h.size
      · rw [arraysSince_add h.size, ← List.append_assoc]
        exact hmakes.orderly h.sound h.orderly h.chronicle

/-- Many arrays. -/
theorem orderly_arrayMoves (hm : ReflTransGen (ArrayMove interfaces) t t') (hs : t.Sound)
    (hc : Chronicle t.bodyAt? log t) (h : t.Orderly made) :
    t.ArraysAdded made log interfaces t' := by
  induction hm with
  | refl => exact ⟨Nat.le_refl _, .refl t, hs, hc, by simpa using h⟩
  | tail _ hmove ih => exact ih.step hmove

/-- **Every plain operation keeps a table orderly**, and nothing is lost. -/
theorem Ran.orderly {op : Op} {reply : Except TableRefusal Reply} (hr : Ran t op reply t')
    (hplain : op.Plain) (hs : t.Sound) (hc : Chronicle t.bodyAt? log t) (h : t.Orderly made) :
    Grows t t' ∧ t'.Orderly (made ++ op.arraysMade t t') := by
  cases hr with
  | refused op e =>
      rw [Op.arraysMade_self, List.append_nil]
      exact ⟨.refl t, h⟩
  | @newLoader parent _ hm =>
      cases hm with
      | newLoader _ _ =>
          simp only [Op.arraysMade, List.append_nil]
          have hk := h.neat.sameArrays_loader (t.loaders.add parent)
          exact ⟨hk.grows, h.grow hk⟩
  | define hm =>
      cases hm with
      | define d body sb _ hfree hl =>
          simp only [Op.arraysMade, List.append_nil]
          have hbody : ∀ b, some body = some b → b.shape.isArray = false := by
            rintro b ⟨⟩
            exact hl.notArray
          exact ⟨.add _ hfree, h.grow (h.neat.sameArrays_add hs hfree hplain hbody)⟩
  | declare hm =>
      cases hm with
      | declare loader name _ hfree =>
          simp only [Op.arraysMade, List.append_nil]
          exact ⟨.add _ hfree, h.grow (h.neat.sameArrays_add hs hfree hplain (by rintro _ ⟨⟩))⟩
  | complete hm =>
      cases hm with
      | complete id d entry body sb he hnone hl =>
          simp only [Op.arraysMade, List.append_nil]
          exact ⟨.put he hnone, h.grow (h.neat.sameArrays_complete he hnone hl.notArray)⟩
  | unload => exact hplain.elim
  | array hm _ =>
      have hadded := orderly_arrayMoves hm hs hc h
      exact ⟨hadded.grows, hadded.orderly⟩
  | arrayRefused e hm =>
      have hadded := orderly_arrayMoves hm hs hc h
      exact ⟨hadded.grows, hadded.orderly⟩

theorem orderly_create {rootName : String} (capacity : Display.Capacity)
    (hroot : isArrayName rootName = false) : (create rootName capacity).Orderly [] where
  named := (neat_create capacity hroot).named
  mirrors := by
    intro x array ha
    rw [arrayAt?_create] at ha
    cases ha
  records := by
    intro id b hb hn
    rw [(bodyAt?_create hb).2.1] at hn
    cases hn
  log := nofun

end

end ClassTable

/-! ### Programs -/

namespace Program

open ClassTable

/-- An event that removes nothing and names no class like an array. -/
def Event.Plain : Event → Prop
  | .perform op => op.Plain
  | _ => True

instance : DecidablePred Event.Plain
  | .perform op => inferInstanceAs (Decidable op.Plain)
  | .openSession _ | .request _ _ | .atGate _ => isTrue trivial

/-- The arrays that an event makes. -/
def Event.arraysMade (p : Program ClassTable) : Event → ArrayLog
  | .perform op => op.arraysMade p.heap.store (p.perform op).2.heap.store
  | _ => []

/-- The class that an event asks for the array of, with the array that is the answer. -/
def Event.arraysFound (p : Program ClassTable) : Event → List (Identity × Identity)
  | .perform (.arrayOf (.ofClass x) interfaces) =>
    match (p.perform (.arrayOf (.ofClass x) interfaces)).1 with
    | .ok (.made array) => [(x, array)]
    | _ => []
  | _ => []

/-- The arrays that a list of events makes. -/
def arraysMade (p : Program ClassTable) (events : List Event) : ArrayLog :=
  p.collect Event.arraysMade events

/-- The classes that a list of events asks for the arrays of, with the answers. -/
def arraysFound (p : Program ClassTable) (events : List Event) : List (Identity × Identity) :=
  p.collect Event.arraysFound events

/-- What holds of a program of plain events. -/
structure Kept (p : Program ClassTable) (log : LoadLog) (made : ArrayLog)
    (found : List (Identity × Identity)) : Prop where
  recorded : p.Recorded p.heap.store.bodyAt? log
  orderly : p.heap.store.Orderly made
  found : ∀ x array, (x, array) ∈ found → p.heap.store.arrayAt? x = some array

section

variable {p : Program ClassTable} {log : LoadLog} {made : ArrayLog}
  {found : List (Identity × Identity)}

/-- What a request answers with is what is found. -/
theorem arrayAt?_of_arraysFound (hs : p.heap.store.Sound) {op : Op} {x array : Identity}
    (h : (x, array) ∈ Event.arraysFound p (.perform op)) :
    (p.perform op).2.heap.store.arrayAt? x = some array := by
  unfold Event.arraysFound at h
  split at h
  · rename_i e y interfaces he
    obtain rfl := Event.perform.inj he
    split at h
    · rename_i array' hreply
      obtain ⟨rfl, rfl⟩ := Prod.mk.inj (List.mem_singleton.mp h)
      exact (perform_arrayOf_eq_ok hs hreply).2.1
    · cases h
  · cases h

theorem Kept.perform (h : p.Kept log made found) {op : Op} (hplain : op.Plain) :
    (p.perform op).2.Kept (log ++ Event.loads p (.perform op))
      (made ++ Event.arraysMade p (.perform op)) (found ++ Event.arraysFound p (.perform op)) := by
  obtain ⟨A, hA, hrecorded⟩ := h.recorded.perform op
  obtain ⟨hgrows, horderly⟩ := (p.perform_ran h.recorded.sound op).1.orderly hplain
    h.recorded.sound h.recorded.chronicle h.orderly
  refine ⟨?_, horderly, ?_⟩
  · rw [hA.eq hgrows.bodies hrecorded.chronicle.live] at hrecorded
    exact hrecorded
  · intro x array hx
    rcases List.mem_append.mp hx with hx | hx
    · exact hgrows.arrayAt? (h.found x array hx)
    · exact arrayAt?_of_arraysFound h.recorded.sound hx

theorem Kept.idle (h : p.Kept log made found) {e : Event} (he : ∀ op, e ≠ .perform op) :
    (p.step e).Kept log made found := by
  obtain ⟨hstore, hrecorded⟩ := h.recorded.idle he
  refine ⟨?_, ?_, ?_⟩
  · rw [hstore]
    exact hrecorded
  · rw [hstore]
    exact h.orderly
  · rw [hstore]
    exact h.found

theorem Kept.step (h : p.Kept log made found) {e : Event} (hplain : e.Plain) :
    (p.step e).Kept (log ++ Event.loads p e) (made ++ Event.arraysMade p e)
      (found ++ Event.arraysFound p e) := by
  cases e with
  | perform op => exact h.perform hplain
  | openSession options =>
      have hidle := h.idle (e := .openSession options) (by intro op he; cases he)
      simpa [Event.loads, Event.arraysMade, Event.arraysFound] using hidle
  | atGate gate =>
      have hidle := h.idle (e := .atGate gate) (by intro op he; cases he)
      simpa [Event.loads, Event.arraysMade, Event.arraysFound] using hidle
  | request i r =>
      have hidle := h.idle (e := .request i r) (by intro op he; cases he)
      simpa [Event.loads, Event.arraysMade, Event.arraysFound] using hidle

/-- **All that plain events make and find is kept.** -/
theorem Kept.after {events : List Event} (hplain : ∀ e ∈ events, e.Plain)
    (h : p.Kept log made found) :
    (p.after events).Kept (log ++ p.loads events) (made ++ p.arraysMade events)
      (found ++ p.arraysFound events) := by
  induction events generalizing p log made found with
  | nil => simpa [Program.after, loads, arraysMade, arraysFound, collect] using h
  | cons e rest ih =>
      have hrest := ih (fun e' he' => hplain e' (List.mem_cons_of_mem e he'))
        (h.step (hplain e List.mem_cons_self))
      simp only [List.append_assoc] at hrest
      exact hrest

end

/-- A program that starts with a root class only. -/
theorem kept_start {rootName : String} (capacity : Display.Capacity)
    (hroot : isArrayName rootName = false) :
    (start (create rootName capacity)).Kept [] [] [] :=
  ⟨recorded_start rootName capacity, orderly_create capacity hroot, nofun⟩

/-- A program that starts with a root class only and goes on with plain events. -/
theorem kept_after {rootName : String} (capacity : Display.Capacity)
    (hroot : isArrayName rootName = false) {events : List Event}
    (hplain : ∀ e ∈ events, e.Plain) :
    ((start (create rootName capacity)).after events).Kept
      ((start (create rootName capacity)).loads events)
      ((start (create rootName capacity)).arraysMade events)
      ((start (create rootName capacity)).arraysFound events) := by
  simpa using (kept_start capacity hroot).after hplain

end Program

end RuntimeTypes
