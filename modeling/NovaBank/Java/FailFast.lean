import Mathlib.Data.List.Basic
import Mathlib.Logic.Function.Basic
import NovaBank.Common.Run

/-!
# Draining shared lists with a fail-fast iterator

Some threads append to lists, each in a variable `k`, and one consumer takes the elements out again:

    for (a : variable k) { variable k = new ArrayList(); execute(a); }

The loop calls `iterator()`, `hasNext()` and `next()` of the list object that the variable held when
it was read, and each of these calls is a step of its own (`Phase`). The iterator is fail-fast: `next`
throws when the list has been changed since the iterator was made. Elements are only ever added, so
the size of the list tells. As long as the variable still holds the object that is iterated, an
append changes that object. After that, it goes to the new list, which the next round of the loop
replaces in turn.

`settled` lets the consumer go on alone, and `outstanding` is what it then executes of a variable
(`settled_executed`). `delivered_step_iff`: a step loses, duplicates or reorders nothing exactly when
it is `Safe`: an append finds the variable open, and an execution throws only when nothing is left.
-/

namespace NovaBank.Java

variable {κ α : Type}

/-- An iterator over the list that the variable `key` held when it was read. -/
structure Iteration (κ α : Type) where
  key : κ
  /-- The contents of the list, once the variable holds another one. -/
  detached : Option (List α)
  /-- How many elements have been taken. -/
  cursor : ℕ
  /-- The size of the list when the iterator was made, which stands for `expectedModCount`. -/
  expected : ℕ

/-- The variable holds another list, and the iterator goes on with the old one. -/
def Iteration.detach (it : Iteration κ α) (l : List α) : Iteration κ α := { it with detached := some l }

/-- One more element has been taken. -/
def Iteration.advance (it : Iteration κ α) : Iteration κ α := { it with cursor := it.cursor + 1 }

/-- The next call of the consumer. -/
inductive Phase (κ α : Type) where
  /-- It has to read a variable. -/
  | waiting
  /-- `iterator()` of the list that it has read. -/
  | iterator (k : κ)
  | hasNext (it : Iteration κ α)
  | next (it : Iteration κ α)
  /-- The assignment of a new list, with the element that it has taken. -/
  | clear (it : Iteration κ α) (a : α)
  | execute (it : Iteration κ α) (a : α)
  /-- An exception has ended the thread. -/
  | ended

/-- The variable that the consumer is at. -/
def Phase.key : Phase κ α → Option κ
  | .waiting | .ended => none
  | .iterator k => some k
  | .hasNext it | .next it | .clear it _ | .execute it _ => some it.key

/-- The lists in the variables, the consumer, and for each variable what has been appended to it and
what has been executed of it. -/
structure Drain (κ α : Type) where
  lists : κ → List α
  phase : Phase κ α
  queued : κ → List α
  executed : κ → List α

namespace Drain

/-- A step of one of the threads. -/
inductive Step (κ α : Type) where
  | append (k : κ) (as : List α)
  /-- The consumer, which is waiting, reads a variable. -/
  | read (k : κ)
  /-- The next call of the consumer. If it is an execution, it may throw. -/
  | consume (throws : Bool)

/-- The drain before any step. -/
def start (lists : κ → List α) : Drain κ α := ⟨lists, .waiting, lists, fun _ => []⟩

/-- The contents of the list that is iterated. -/
def contents (d : Drain κ α) (it : Iteration κ α) : List α := it.detached.getD (d.lists it.key)

variable [DecidableEq κ]

/-- A new list in the variable of an iterator. -/
def cleared (d : Drain κ α) (it : Iteration κ α) (a : α) : Drain κ α :=
  { d with
    lists := Function.update d.lists it.key []
    phase := .execute (it.detach (d.contents it)) a }

/-- The execution of an element. -/
def ran (d : Drain κ α) (it : Iteration κ α) (a : α) (throws : Bool) : Drain κ α :=
  { d with
    phase := if throws then .ended else .hasNext it
    executed := Function.update d.executed it.key (d.executed it.key ++ [a]) }

/-- The next call of the consumer. -/
def consume (d : Drain κ α) (throws : Bool) : Drain κ α :=
  match d.phase with
  | .waiting | .ended => d
  | .iterator k => { d with phase := .hasNext ⟨k, none, 0, (d.lists k).length⟩ }
  | .hasNext it =>
    { d with phase := if it.cursor = (d.contents it).length then .waiting else .next it }
  | .next it =>
    if (d.contents it).length = it.expected then
      match (d.contents it)[it.cursor]? with
      | some a => { d with phase := .clear it.advance a }
      | none => { d with phase := .ended }
    else { d with phase := .ended }
  | .clear it a => d.cleared it a
  | .execute it a => d.ran it a throws

/-- One step. -/
def step (d : Drain κ α) : Step κ α → Drain κ α
  | .append k as =>
    { d with
      lists := Function.update d.lists k (d.lists k ++ as)
      queued := Function.update d.queued k (d.queued k ++ as) }
  | .read k =>
    match d.phase with
    | .waiting => { d with phase := .iterator k }
    | _ => d
  | .consume throws => d.consume throws

/-- What the loop will still execute of the variable `k`, from `hasNext()` on. -/
def remaining (d : Drain κ α) (it : Iteration κ α) (k : κ) : List α :=
  if it.cursor = (d.contents it).length then d.lists k
  -- The iterator throws.
  else if (d.contents it).length ≠ it.expected then []
  -- What is in the variable now will be replaced.
  else if it.key = k then (d.contents it).drop it.cursor
  else d.lists k

/-- The element that has been taken, if it is from the variable `k`, and what follows. -/
def taken (d : Drain κ α) (it : Iteration κ α) (a : α) (k : κ) : List α :=
  if it.key = k then a :: d.remaining it k else d.remaining it k

/-- What the consumer will still execute of the variable `k` when nothing more is appended. -/
def outstanding (d : Drain κ α) (k : κ) : List α :=
  match d.phase with
  | .waiting | .iterator _ => d.lists k
  | .hasNext it | .next it => d.remaining it k
  | .clear it a => (d.cleared it a).taken (it.detach (d.contents it)) a k
  | .execute it a => d.taken it a k
  | .ended => []

/-- Nothing is lost, duplicated or out of order: for each variable, what has been appended is what
has been executed, followed by what is outstanding. -/
def Delivered (d : Drain κ α) : Prop := ∀ k, d.queued k = d.executed k ++ d.outstanding k

/-- The variable `k` is open: what is appended to it now will be executed. The consumer runs, and it
is not between the call of `iterator()` for this variable and the last assignment of a new list to it.
-/
def Open (d : Drain κ α) (k : κ) : Prop :=
  match d.phase with
  | .waiting | .iterator _ => True
  | .hasNext it =>
    it.key = k → it.detached.isSome ∧ it.cursor = (d.contents it).length
  | .next it | .clear it _ => it.key ≠ k
  | .execute it _ => it.key = k → it.cursor = (d.contents it).length
  | .ended => False

/-- An append finds the variable open, and an execution throws only when nothing is left to do. -/
def Safe (d : Drain κ α) : Step κ α → Prop
  | .append k as => as = [] ∨ d.Open k
  | .read _ => True
  | .consume throws => throws = true → ∀ it a, d.phase = .execute it a →
      it.cursor = (d.contents it).length ∧ ∀ k, d.lists k = []

/-- The cursor and the size are where the phase says. -/
def Valid (d : Drain κ α) : Prop :=
  match d.phase with
  | .waiting | .iterator _ | .ended => True
  | .hasNext it => it.cursor ≤ it.expected ∧ it.expected ≤ (d.contents it).length ∧
      (it.detached = none → it.cursor = 0)
  | .next it => it.cursor ≤ it.expected ∧ it.expected ≤ (d.contents it).length ∧
      it.cursor < (d.contents it).length
  | .clear it _ => it.cursor ≤ it.expected ∧ it.expected ≤ (d.contents it).length
  | .execute it _ => it.cursor ≤ it.expected ∧ it.expected ≤ (d.contents it).length ∧
      it.detached.isSome

/-- The list that is iterated has not been changed since the iterator was made. -/
def Unchanged (d : Drain κ α) : Prop :=
  match d.phase with
  | .waiting | .iterator _ | .ended => True
  | .hasNext it | .next it | .clear it _ | .execute it _ => (d.contents it).length = it.expected

/-- After the assignment of a new list, the rest of the old one remains, unless it has changed. -/
theorem remaining_cleared (d : Drain κ α) (it : Iteration κ α) (a : α) (l : List α) :
    (d.cleared it a).remaining (it.detach l) it.key =
      if l.length = it.expected then l.drop it.cursor else [] := by
  have hlist : (d.cleared it a).lists it.key = [] := by simp [cleared]
  have hcontents : (d.cleared it a).contents (it.detach l) = l := rfl
  have hsame : (it.detach l).key = it.key ∧ (it.detach l).cursor = it.cursor ∧
      (it.detach l).expected = it.expected := ⟨rfl, rfl, rfl⟩
  simp only [remaining, hcontents, hlist, hsame, if_true]
  -- An iteration at its end finds nothing, whether the list has changed or not.
  by_cases hend : it.cursor = l.length
  · simp [hend]
  · rw [if_neg hend]
    by_cases hlen : l.length = it.expected
    · rw [if_neg (not_not.mpr hlen), if_pos hlen]
    · rw [if_pos hlen, if_neg hlen]

/-! ## Appending -/

section Append

variable {d : Drain κ α} {k : κ} {as : List α}

/-- An append changes the list that is iterated only as long as the variable holds it. -/
theorem contents_append (it : Iteration κ α) :
    (d.step (.append k as)).contents it =
      if it.detached = none ∧ it.key = k then d.contents it ++ as else d.contents it := by
  obtain ⟨key, detached, cursor, expected⟩ := it
  cases detached with
  | some l => rfl
  | none =>
    by_cases e : key = k
    · subst e
      simp [contents, step]
    · simp [contents, step, e]

/-- A list that the variable does not hold any more is not changed. -/
theorem contents_append_of_away {it : Iteration κ α} (haway : it.key = k → it.detached.isSome) :
    (d.step (.append k as)).contents it = d.contents it := by
  rw [contents_append, if_neg]
  rintro ⟨hnone, e⟩
  simpa [hnone] using haway e

/-- When the consumer is not at the list in the variable, the loop goes on as before, and the new
elements come last. -/
theorem remaining_append {it : Iteration κ α} (hlen : (d.contents it).length = it.expected)
    (haway : it.key = k → it.detached.isSome ∧ it.cursor = (d.contents it).length) (j : κ) :
    (d.step (.append k as)).remaining it j =
      if j = k then d.remaining it j ++ as else d.remaining it j := by
  have hcontents : (d.step (.append k as)).contents it = d.contents it :=
    contents_append_of_away fun e => (haway e).1
  have hlists : (d.step (.append k as)).lists j = if j = k then d.lists j ++ as else d.lists j := by
    by_cases e : j = k
    · subst e
      simp [step]
    · simp [step, e]
  simp only [remaining, hcontents, hlists, hlen, ne_eq, not_true_eq_false, if_false]
  by_cases hend : it.cursor = it.expected
  · simp only [hend, if_true]
  · simp only [hend, if_false]
    by_cases hkey : it.key = j
    · -- The loop is not at the end, so that it is at another variable.
      have hne : j ≠ k := fun e => hend (hlen ▸ (haway (hkey.trans e)).2)
      simp only [hkey, hne, if_true, if_false]
    · simp only [hkey, if_false]

/-- An append that the iteration no longer sees comes behind what is taken of its variable. -/
theorem taken_append (it : Iteration κ α) (hlen : (d.contents it).length = it.expected)
    (haway : it.key = k → it.detached.isSome ∧ it.cursor = (d.contents it).length) (a : α) (j : κ) :
    (d.step (.append k as)).taken it a j =
      if j = k then d.taken it a j ++ as else d.taken it a j := by
  simp only [taken, remaining_append hlen haway]
  split_ifs <;> simp

/-- A new list in one variable and an append to another one commute. -/
theorem cleared_append {it : Iteration κ α} (hne : it.key ≠ k) (a : α) :
    (d.step (.append k as)).cleared it a = (d.cleared it a).step (.append k as) := by
  have hcontents : (d.step (.append k as)).contents it = d.contents it :=
    contents_append_of_away fun e => (hne e).elim
  simp only [cleared, hcontents]
  simp [step, Function.update_comm hne, Function.update_of_ne hne.symm]

/-- What is appended to an open variable is outstanding, after what was. -/
theorem outstanding_append (valid : d.Valid) (unchanged : d.Unchanged) (hopen : d.Open k) (j : κ) :
    (d.step (.append k as)).outstanding j =
      if j = k then d.outstanding j ++ as else d.outstanding j := by
  have hphase : (d.step (.append k as)).phase = d.phase := rfl
  have hlists : (d.step (.append k as)).lists j = if j = k then d.lists j ++ as else d.lists j := by
    by_cases e : j = k
    · subst e
      simp [step]
    · simp [step, e]
  -- Where the iteration has its own object, the append goes to the variable, and comes after it.
  cases hp : d.phase with
  | waiting => simp only [outstanding, hphase, hp, hlists]
  | iterator k' => simp only [outstanding, hphase, hp, hlists]
  | hasNext it =>
    simp only [Unchanged, Open, hp] at unchanged hopen
    simpa only [outstanding, hphase, hp] using remaining_append unchanged hopen j
  | next it =>
    simp only [Unchanged, Open, hp] at unchanged hopen
    simpa only [outstanding, hphase, hp] using remaining_append unchanged (fun e => (hopen e).elim) j
  | clear it a =>
    simp only [Unchanged, Open, hp] at unchanged hopen
    have hcontents : (d.step (.append k as)).contents it = d.contents it :=
      contents_append_of_away fun e => (hopen e).elim
    simp only [outstanding, hphase, hp, cleared_append hopen, hcontents]
    exact taken_append (it.detach (d.contents it)) unchanged (fun e => (hopen e).elim) a j
  | execute it a =>
    simp only [Valid, Unchanged, Open, hp] at valid unchanged hopen
    simpa only [outstanding, hphase, hp] using
      taken_append it unchanged (fun e => ⟨valid.2.2, hopen e⟩) a j
  | ended => simp [Open, hp] at hopen

/-- An append to the very list that is iterated makes `next` throw. -/
theorem remaining_append_changed {it : Iteration κ α} (hlen : (d.contents it).length = it.expected)
    (hcursor : it.cursor ≤ it.expected) (hnone : it.detached = none) (hkey : it.key = k)
    (hne : as ≠ []) (j : κ) : (d.step (.append k as)).remaining it j = [] := by
  have hlength : 0 < as.length := List.length_pos_of_ne_nil hne
  have hcontents : ((d.step (.append k as)).contents it).length = it.expected + as.length := by
    rw [contents_append, if_pos ⟨hnone, hkey⟩, List.length_append, hlen]
  rw [remaining, hcontents, if_neg (by omega), if_pos (by omega)]

/-- An append to a list that the loop will replace changes nothing of what it executes. -/
theorem remaining_append_replaced {it : Iteration κ α} (hsome : it.detached.isSome)
    (hmiddle : it.cursor ≠ (d.contents it).length) (hkey : it.key = k) :
    (d.step (.append k as)).remaining it k = d.remaining it k := by
  have hcontents : (d.step (.append k as)).contents it = d.contents it :=
    contents_append_of_away fun _ => hsome
  simp only [remaining, hcontents, hmiddle, hkey, if_false, if_true]

/-- An append in the middle of the iteration makes `next` throw, or what is appended is replaced:
nothing more is outstanding than before. -/
theorem length_outstanding_append (valid : d.Valid) (unchanged : d.Unchanged) (hclosed : ¬ d.Open k)
    (hne : as ≠ []) :
    ((d.step (.append k as)).outstanding k).length ≤ (d.outstanding k).length := by
  have hphase : (d.step (.append k as)).phase = d.phase := rfl
  cases hp : d.phase with
  | waiting => simp [Open, hp] at hclosed
  | iterator k' => simp [Open, hp] at hclosed
  | hasNext it =>
    simp only [Valid, Unchanged, Open, hp, Classical.not_imp, not_and] at valid unchanged hclosed
    obtain ⟨hkey, hmiddle⟩ := hclosed
    simp only [outstanding, hphase, hp]
    -- A list that is still in the variable changes under the iterator, which will throw.
    cases hdetached : it.detached with
    | none => simp [remaining_append_changed unchanged valid.1 hdetached hkey hne]
    | some l =>
      have hsome : it.detached.isSome := by simp [hdetached]
      exact Nat.le_of_eq (congrArg List.length (remaining_append_replaced hsome (hmiddle hsome) hkey))
  | next it =>
    simp only [Valid, Unchanged, Open, hp, ne_eq, not_not] at valid unchanged hclosed
    simp only [outstanding, hphase, hp]
    -- The same before a call of `next`.
    cases hdetached : it.detached with
    | none => simp [remaining_append_changed unchanged valid.1 hdetached hclosed hne]
    | some l =>
      have hsome : it.detached.isSome := by simp [hdetached]
      have hmiddle : it.cursor ≠ (d.contents it).length := Nat.ne_of_lt valid.2.2
      exact Nat.le_of_eq (congrArg List.length (remaining_append_replaced hsome hmiddle hclosed))
  | clear it a =>
    simp only [Unchanged, Open, hp, ne_eq, not_not] at unchanged hclosed
    subst hclosed
    have hkey : ∀ l, (it.detach l).key = it.key := fun _ => rfl
    simp only [outstanding, hphase, hp, taken, hkey, if_true, List.length_cons,
      Nat.add_le_add_iff_right, remaining_cleared, contents_append]
    -- When the list is cleared now, the appended elements go with it.
    cases hdetached : it.detached with
    | none =>
      have hlong : (d.contents it ++ as).length ≠ it.expected := by
        rw [List.length_append, unchanged]
        have := List.length_pos_of_ne_nil hne
        omega
      simp only [and_self, if_true, if_neg hlong]
      exact Nat.zero_le _
    | some l => simp
  | execute it a =>
    simp only [Valid, Open, hp, Classical.not_imp] at valid hclosed
    obtain ⟨hkey, hmiddle⟩ := hclosed
    simp only [outstanding, hphase, hp, taken, remaining_append_replaced valid.2.2 hmiddle hkey]
    exact Nat.le_refl _
  | ended => simp [outstanding, hphase, hp]

end Append

/-! ## Consuming -/

section Consume

variable {d : Drain κ α}

/-- After the assignment of a new list: the element, the rest of the old list, and the other
variables. -/
theorem taken_cleared (d : Drain κ α) (it : Iteration κ α) {l : List α}
    (hlen : l.length = it.expected) (a : α) (k : κ) :
    (d.cleared it a).taken (it.detach l) a k =
      if it.key = k then a :: l.drop it.cursor else d.lists k := by
  have hkey : (it.detach l).key = it.key := rfl
  by_cases e : it.key = k
  · subst e
    rw [taken, if_pos hkey, remaining_cleared, if_pos hlen, if_pos rfl]
  -- Another variable is as it was.
  · have hlist : (d.cleared it a).lists k = d.lists k := by simp [cleared, Ne.symm e]
    rw [taken, hkey, if_neg e, if_neg e, remaining, hkey, if_neg e, hlist]
    split_ifs with hend hchanged
    · rfl
    · exact (hchanged hlen).elim
    · rfl

/-- The loop of an iterator that has just been made has the whole list before it. -/
theorem remaining_new (d : Drain κ α) (k j : κ) :
    d.remaining ⟨k, none, 0, (d.lists k).length⟩ j = d.lists j := by
  have hcontents : d.contents ⟨k, none, 0, (d.lists k).length⟩ = d.lists k := rfl
  simp only [remaining, hcontents, ne_eq, not_true_eq_false, if_false, List.drop_zero]
  by_cases e : k = j
  · subst e
    simp
  · simp [e]

/-- A call of the consumer that does not throw an exception of its own moves what it executes from
what is outstanding to what has been executed. -/
theorem consume_eq (valid : d.Valid) (k : κ) :
    (d.consume false).executed k ++ (d.consume false).outstanding k =
      d.executed k ++ d.outstanding k := by
  cases hp : d.phase with
  | waiting => simp only [consume, hp]
  | ended => simp only [consume, hp]
  | iterator k' =>
    simp only [consume, hp, outstanding]
    exact congrArg _ (remaining_new d k' k)
  | hasNext it =>
    simp only [consume, hp, outstanding]
    by_cases hend : it.cursor = (d.contents it).length
    · simp only [hend, if_true, remaining]
    · simp only [hend, if_false]
      rfl
  | next it =>
    simp only [Valid, hp] at valid
    have hinside : it.cursor < (d.contents it).length := valid.2.2
    have hmiddle : it.cursor ≠ (d.contents it).length := Nat.ne_of_lt hinside
    have hget : (d.contents it)[it.cursor]? = some (d.contents it)[it.cursor] :=
      List.getElem?_eq_getElem hinside
    -- `next` takes the element under the cursor, or throws when the list has changed.
    by_cases hlen : (d.contents it).length = it.expected
    · simp only [consume, hp, if_pos hlen, hget, outstanding]
      refine congrArg _ ((taken_cleared d it.advance hlen _ k).trans ?_)
      rw [remaining, if_neg hmiddle, if_neg (not_not.mpr hlen), List.drop_eq_getElem_cons hinside]
      rfl
    · simp only [consume, hp, if_neg hlen, outstanding]
      rw [remaining, if_neg hmiddle, if_pos hlen]
  | clear it a =>
    simp only [consume, hp, outstanding]
    rfl
  | execute it a =>
    simp only [consume, hp, outstanding, ran, taken, Bool.false_eq_true, if_false]
    -- What was the first of the outstanding elements is the last of the executed ones.
    by_cases e : it.key = k
    · subst e
      simp [remaining, contents]
    · simp [e, Ne.symm e, remaining, contents]

/-- An execution that throws loses whatever is left. -/
theorem delivered_throw_iff {it : Iteration κ α} {a : α} (hp : d.phase = .execute it a)
    (valid : d.Valid) (unchanged : d.Unchanged) (h : d.Delivered) :
    (d.consume true).Delivered ↔ it.cursor = (d.contents it).length ∧ ∀ k, d.lists k = [] := by
  simp only [Valid, Unchanged, hp] at valid unchanged
  -- What has been executed includes the element, and nothing is outstanding.
  have hleft : (d.consume true).Delivered ↔ ∀ k, d.remaining it k = [] := by
    refine forall_congr' fun k => ?_
    have hk := h k
    simp only [outstanding, hp, taken] at hk
    simp only [consume, hp, ran, outstanding, if_true, hk]
    by_cases e : it.key = k
    · subst e
      simp
    · simp [e, Ne.symm e]
  rw [hleft]
  constructor
  · intro hnil
    have hend : it.cursor = (d.contents it).length := by
      by_contra hmiddle
      have hkey := hnil it.key
      rw [remaining, if_neg hmiddle, if_neg (not_not.mpr unchanged), if_pos rfl,
        List.drop_eq_nil_iff] at hkey
      have := valid.1
      omega
    refine ⟨hend, fun k => ?_⟩
    have hk := hnil k
    rwa [remaining, if_pos hend] at hk
  · rintro ⟨hend, hnil⟩ k
    rw [remaining, if_pos hend, hnil k]

/-- The consumer queues nothing. -/
theorem consume_queued (d : Drain κ α) (throws : Bool) : (d.consume throws).queued = d.queued := by
  unfold consume
  split <;> try rfl
  split
  · split <;> rfl
  · rfl

/-- A call of the consumer is about the variable that it is at. -/
theorem consume_key {throws : Bool} {k : κ} (h : (d.consume throws).phase.key = some k) :
    d.phase.key = some k := by
  -- No phase goes on to another variable without a read.
  cases hp : d.phase with
  | waiting | ended => simpa only [consume, hp] using h
  | iterator k' =>
    simp only [consume, hp] at h
    exact h
  | hasNext it =>
    simp only [consume, hp] at h
    split_ifs at h
    · cases h
    · exact h
  | next it =>
    simp only [consume, hp] at h
    split_ifs at h
    · split at h
      · exact h
      · cases h
    · cases h
  | clear it a =>
    simp only [consume, hp] at h
    exact h
  | execute it a =>
    simp only [consume, hp, ran] at h
    split_ifs at h
    · cases h
    · exact h

/-- Only the assignment of a new list changes a variable. -/
theorem consume_lists (h : ∀ it a, d.phase ≠ .clear it a) (throws : Bool) :
    (d.consume throws).lists = d.lists := by
  cases hp : d.phase with
  | clear it a => exact (h it a hp).elim
  | next it =>
    simp only [consume, hp]
    split
    · split <;> rfl
    · rfl
  | waiting | iterator k | hasNext it | execute it a | ended => simp only [consume, hp, ran]

/-- Only an execution throws an exception of its own. -/
theorem consume_true_eq (h : ∀ it a, d.phase ≠ .execute it a) : d.consume true = d.consume false := by
  cases hp : d.phase with
  | execute it a => exact (h it a hp).elim
  | waiting | iterator k | hasNext it | next it | clear it a | ended => simp only [consume, hp]

end Consume

/-! ## One step -/

section Step

variable {d : Drain κ α}

/-- An append of nothing changes nothing. -/
theorem append_nil (d : Drain κ α) (k : κ) : d.step (.append k []) = d := by
  simp [step]

/-- A step loses, duplicates or reorders nothing exactly when it is safe. -/
theorem delivered_step_iff (valid : d.Valid) (unchanged : d.Unchanged) (h : d.Delivered)
    (x : Step κ α) :
    (d.step x).Delivered ↔ d.Safe x := by
  cases x with
  | append k as =>
    by_cases hnil : as = []
    · subst hnil
      rw [append_nil]
      exact iff_of_true h (.inl rfl)
    by_cases hopen : d.Open k
    · refine iff_of_true (fun j => ?_) (.inr hopen)
      rw [outstanding_append valid unchanged hopen]
      by_cases e : j = k
      · subst e
        simp [step, h j]
      · simp [step, e, h j]
    · refine iff_of_false (fun hd => ?_) (by simp [Safe, hnil, hopen])
      -- More has been appended than will ever be executed.
      have hlength := congrArg List.length (hd k)
      have hbefore := congrArg List.length (h k)
      have hless := length_outstanding_append valid unchanged hopen hnil
      have hpos := List.length_pos_of_ne_nil hnil
      have hqueued : (d.step (.append k as)).queued k = d.queued k ++ as := by simp [step]
      have hexecuted : (d.step (.append k as)).executed k = d.executed k := rfl
      rw [hqueued, hexecuted, List.length_append, List.length_append] at hlength
      rw [List.length_append] at hbefore
      omega
  | read k =>
    refine iff_of_true (fun j => ?_) trivial
    have hj := h j
    cases hp : d.phase <;> simp_all [step, outstanding]
  | consume throws =>
    have hfalse : (d.consume false).Delivered := fun k => by
      rw [consume_queued, consume_eq valid, h k]
    cases throws with
    | false => exact iff_of_true hfalse (by simp [Safe])
    | true =>
      by_cases hexecute : ∃ it a, d.phase = .execute it a
      · obtain ⟨it, a, hp⟩ := hexecute
        refine (delivered_throw_iff hp valid unchanged h).trans
          ⟨fun hleft _ it' a' hp' => ?_, fun hsafe => ?_⟩
        · rw [hp] at hp'
          cases hp'
          exact hleft
        · exact hsafe rfl it a hp
      · have hno : ∀ it a, d.phase ≠ .execute it a := fun it a hp => hexecute ⟨it, a, hp⟩
        refine iff_of_true ?_ fun _ it a hp => (hno it a hp).elim
        show (d.consume true).Delivered
        rw [consume_true_eq hno]
        exact hfalse

/-- A call of the consumer leaves the iterator valid. -/
theorem valid_consume (valid : d.Valid) (throws : Bool) : (d.consume throws).Valid := by
  cases hp : d.phase with
  | waiting => simpa only [consume, hp] using valid
  | ended => simpa only [consume, hp] using valid
  | iterator k =>
    simp only [consume, hp]
    exact ⟨Nat.zero_le _, Nat.le_refl _, fun _ => rfl⟩
  | hasNext it =>
    simp only [Valid, hp] at valid
    obtain ⟨hcursor, hlen, -⟩ := valid
    simp only [consume, hp]
    by_cases hend : it.cursor = (d.contents it).length
    · simp only [hend, if_true, Valid]
    · simp only [hend, if_false]
      exact ⟨hcursor, hlen, Nat.lt_of_le_of_ne (Nat.le_trans hcursor hlen) hend⟩
  | next it =>
    simp only [Valid, hp] at valid
    obtain ⟨hcursor, hlen, hinside⟩ := valid
    -- The cursor is inside the list, so there is an element.
    have hget : (d.contents it)[it.cursor]? = some (d.contents it)[it.cursor] :=
      List.getElem?_eq_getElem hinside
    by_cases hsame : (d.contents it).length = it.expected
    · simp only [consume, hp, if_pos hsame, hget]
      exact ⟨hsame ▸ hinside, hlen⟩
    · simp only [consume, hp, if_neg hsame, Valid]
  | clear it a =>
    simp only [Valid, hp] at valid
    simp only [consume, hp]
    exact ⟨valid.1, valid.2, rfl⟩
  | execute it a =>
    simp only [Valid, hp] at valid
    obtain ⟨hcursor, hlen, hsome⟩ := valid
    simp only [consume, hp, ran]
    cases throws with
    | true => trivial
    | false => exact ⟨hcursor, hlen, fun hnone => by simp [hnone] at hsome⟩

/-- Every step leaves the iterator valid. -/
theorem valid_step (valid : d.Valid) (x : Step κ α) : (d.step x).Valid := by
  cases x with
  | read k => cases hp : d.phase <;> simp_all [step, Valid, contents]
  | consume throws => exact valid_consume valid throws
  | append k as =>
    have hphase : (d.step (.append k as)).phase = d.phase := rfl
    -- Appends make lists longer, and so the cursors stay inside.
    have hlonger : ∀ it, (d.contents it).length ≤ ((d.step (.append k as)).contents it).length := by
      intro it
      rw [contents_append]
      split_ifs <;> simp
    cases hp : d.phase with
    | waiting | iterator k' | ended => simp only [Valid, hphase, hp]
    | hasNext it =>
      simp only [Valid, hphase, hp] at valid ⊢
      exact ⟨valid.1, Nat.le_trans valid.2.1 (hlonger it), valid.2.2⟩
    | next it =>
      simp only [Valid, hphase, hp] at valid ⊢
      exact ⟨valid.1, Nat.le_trans valid.2.1 (hlonger it), Nat.lt_of_lt_of_le valid.2.2 (hlonger it)⟩
    | clear it a =>
      simp only [Valid, hphase, hp] at valid ⊢
      exact ⟨valid.1, Nat.le_trans valid.2 (hlonger it)⟩
    | execute it a =>
      simp only [Valid, hphase, hp] at valid ⊢
      exact ⟨valid.1, Nat.le_trans valid.2.1 (hlonger it), valid.2.2⟩

/-- A call of the consumer does not change the list that it iterates. -/
theorem unchanged_consume (unchanged : d.Unchanged) (throws : Bool) :
    (d.consume throws).Unchanged := by
  -- Nothing is added by the consumer.
  cases hp : d.phase with
  | waiting | ended => simpa only [consume, hp] using unchanged
  | iterator k => simp [consume, hp, Unchanged, contents]
  | hasNext it =>
    simp only [Unchanged, hp] at unchanged
    simp only [consume, hp]
    by_cases hend : it.cursor = (d.contents it).length
    · simp only [hend, if_true, Unchanged]
    · simp only [hend, if_false]
      exact unchanged
  | next it =>
    simp only [Unchanged, hp] at unchanged
    simp only [consume, hp, if_pos unchanged]
    split
    · exact unchanged
    · trivial
  | clear it a =>
    simp only [Unchanged, hp] at unchanged
    simp only [consume, hp]
    exact unchanged
  | execute it a =>
    simp only [Unchanged, hp] at unchanged
    simp only [consume, hp, ran]
    cases throws with
    | true => trivial
    | false => exact unchanged

/-- A safe step does not change the list that is iterated. -/
theorem unchanged_step (valid : d.Valid) (unchanged : d.Unchanged) (x : Step κ α)
    (safe : d.Safe x) : (d.step x).Unchanged := by
  cases x with
  | read k => cases hp : d.phase <;> simp_all [step, Unchanged, contents]
  | consume throws => exact unchanged_consume unchanged throws
  | append k as =>
    rcases safe with rfl | hopen
    · rwa [append_nil]
    -- A safe append does not touch the list that is iterated.
    have hphase : (d.step (.append k as)).phase = d.phase := rfl
    cases hp : d.phase with
    | waiting | iterator k' | ended => simp only [Unchanged, hphase, hp]
    | hasNext it =>
      simp only [Unchanged, Open, hphase, hp] at unchanged hopen ⊢
      rwa [contents_append_of_away fun e => (hopen e).1]
    | next it | clear it a =>
      simp only [Unchanged, Open, hphase, hp] at unchanged hopen ⊢
      rwa [contents_append_of_away fun e => (hopen e).elim]
    | execute it a =>
      simp only [Valid, Unchanged, hphase, hp] at valid unchanged ⊢
      rwa [contents_append_of_away fun _ => valid.2.2]

end Step

/-! ## The consumer alone -/

section Alone

variable {d : Drain κ α}

/-- Some calls of the consumer, none of which throws an exception of its own. -/
def alone (d : Drain κ α) : ℕ → Drain κ α
  | 0 => d
  | n + 1 => (d.consume false).alone n

/-- A bound on the calls until the consumer waits or has ended. -/
def calls (d : Drain κ α) : ℕ :=
  match d.phase with
  | .waiting | .ended => 0
  | .iterator k => 4 * (d.lists k).length + 3
  | .hasNext it => 4 * (it.expected - it.cursor) + 2
  | .next it => 4 * (it.expected - it.cursor) + 1
  | .clear it _ => 4 * (it.expected - it.cursor) + 4
  | .execute it _ => 4 * (it.expected - it.cursor) + 3

/-- The consumer goes on alone until it waits, reads the variable `k`, and goes on until it waits
again. No execution throws on the way: `alone` leaves out that the consumer may end by itself. -/
def settled (d : Drain κ α) (k : κ) : Drain κ α :=
  let d := (d.alone d.calls).step (.read k)
  d.alone d.calls

/-- The variable `k` will be empty when the consumer waits again. -/
def Emptying (d : Drain κ α) (k : κ) : Prop :=
  match d.phase with
  | .waiting => d.lists k = []
  | .iterator k' => k' = k
  | .hasNext it => it.key = k ∧ (it.detached = none ∨ d.lists k = [])
  | .next it | .clear it _ => it.key = k
  | .execute it _ => it.key = k ∧ d.lists k = []
  | .ended => True

/-- The consumer waits, or it has ended. -/
def Stopped (d : Drain κ α) : Prop := d.phase = .waiting ∨ d.phase = .ended

/-- A call brings the consumer closer to the end, and empties the variable that is emptied. -/
theorem calls_consume (valid : d.Valid) :
    (d.Stopped ∨ (d.consume false).calls < d.calls) ∧
      ∀ k, d.Emptying k → (d.consume false).Emptying k := by
  cases hp : d.phase with
  | waiting => exact ⟨.inl (.inl hp), by simp [consume, hp]⟩
  | ended => exact ⟨.inl (.inr hp), by simp [consume, hp]⟩
  | iterator k =>
    simp only [consume, hp, calls, Emptying]
    refine ⟨.inr (by omega), ?_⟩
    rintro k rfl
    exact ⟨rfl, .inl trivial⟩
  | hasNext it =>
    simp only [Valid, hp] at valid
    simp only [consume, hp, calls, Emptying]
    by_cases hend : it.cursor = (d.contents it).length
    · simp only [hend, if_true]
      refine ⟨.inr (by omega), ?_⟩
      rintro k ⟨rfl, hdetached | hempty⟩
      · -- Nothing has been taken out of the list in the variable, so that it is empty.
        rw [valid.2.2 hdetached, contents, hdetached] at hend
        exact List.eq_nil_of_length_eq_zero hend.symm
      · exact hempty
    · simp only [hend, if_false]
      exact ⟨.inr (by omega), fun k h => h.1⟩
  | next it =>
    simp only [Valid, hp] at valid
    have hget : (d.contents it)[it.cursor]? = some (d.contents it)[it.cursor] :=
      List.getElem?_eq_getElem valid.2.2
    by_cases hsame : (d.contents it).length = it.expected
    · have hinside := valid.2.2
      simp only [consume, hp, if_pos hsame, hget, calls, Emptying, Iteration.advance]
      exact ⟨.inr (by omega), fun k h => h⟩
    · simp only [consume, hp, if_neg hsame, calls, Emptying]
      exact ⟨.inr (by omega), fun _ _ => trivial⟩
  | clear it a =>
    simp only [consume, hp, calls, Emptying, cleared, Iteration.detach]
    refine ⟨.inr (by omega), ?_⟩
    rintro k rfl
    exact ⟨rfl, by simp⟩
  | execute it a =>
    simp only [consume, hp, calls, Emptying, ran, Bool.false_eq_true, if_false]
    exact ⟨.inr (by omega), fun k h => ⟨h.1, .inr h.2⟩⟩

/-- A consumer that waits or has ended stays where it is. -/
theorem alone_of_stopped (h : d.Stopped) (n : ℕ) : d.alone n = d := by
  have hconsume : d.consume false = d := by
    rcases h with hp | hp <;> simp only [consume, hp]
  induction n with
  | zero => rfl
  | succ n ih => rw [alone, hconsume, ih]

/-- What the consumer does alone: it stops, and what was outstanding has been executed, but for what
is still outstanding. -/
theorem alone_spec (valid : d.Valid) {n : ℕ} (hn : d.calls ≤ n) :
    (d.alone n).Stopped ∧ (d.alone n).Valid ∧
      ∀ k, (d.alone n).executed k ++ (d.alone n).outstanding k = d.executed k ++ d.outstanding k ∧
        (d.Emptying k → (d.alone n).Emptying k) := by
  -- On a bound for the calls that are left, each of which keeps what will be executed.
  induction n generalizing d with
  | zero =>
    have hstopped : d.Stopped := (calls_consume valid).1.resolve_right (by omega)
    exact ⟨hstopped, valid, fun k => ⟨rfl, id⟩⟩
  | succ n ih =>
    obtain ⟨hless, hempty⟩ := calls_consume valid
    rcases hless with hstopped | hless
    · rw [alone_of_stopped hstopped]
      exact ⟨hstopped, valid, fun k => ⟨rfl, id⟩⟩
    · obtain ⟨hstopped, hvalid, hrest⟩ := ih (valid_consume valid false) (by omega)
      refine ⟨hstopped, hvalid, fun k => ⟨?_, fun h => (hrest k).2 (hempty k h)⟩⟩
      exact (hrest k).1.trans (consume_eq valid k)

/-- A consumer that stops with an emptied variable has nothing outstanding of it. -/
theorem outstanding_of_emptying (hstopped : d.Stopped) {k : κ} (hempty : d.Emptying k) :
    d.outstanding k = [] := by
  rcases hstopped with hp | hp
  · simpa only [outstanding, Emptying, hp] using hempty
  · simp only [outstanding, hp]

/-- What is outstanding of a variable is what the consumer executes when it goes on alone. -/
theorem settled_executed (valid : d.Valid) (k : κ) :
    (d.settled k).executed k = d.executed k ++ d.outstanding k := by
  obtain ⟨hstopped, hvalid, hsame⟩ := alone_spec valid (Nat.le_refl _)
  have hvalid' := valid_step hvalid (.read k)
  obtain ⟨hstopped', -, hsame'⟩ := alone_spec hvalid' (Nat.le_refl _)
  obtain ⟨hexecuted, hempty⟩ := hsame' k
  -- After the read, everything that is outstanding of the variable is in the list that is iterated.
  have hread : ((d.alone d.calls).step (.read k)).executed k ++
        ((d.alone d.calls).step (.read k)).outstanding k =
      (d.alone d.calls).executed k ++ (d.alone d.calls).outstanding k ∧
      ((d.alone d.calls).step (.read k)).Emptying k := by
    rcases hstopped with hp | hp
    · simp [step, outstanding, Emptying, hp]
    · simp [step, outstanding, Emptying, hp]
  have hnil := outstanding_of_emptying hstopped' (hempty hread.2)
  rw [hnil, List.append_nil] at hexecuted
  exact hexecuted.trans (hread.1.trans (hsame k).1)

end Alone

end Drain

end NovaBank.Java
