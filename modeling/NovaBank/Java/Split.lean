import Mathlib.Algebra.Ring.Nat
import Mathlib.Data.List.DropRight
import NovaBank.Java.Text

/-!
# Joining what was split

`rejoin sep first rest` puts the separator between the pieces of a text again. What `split` returns is
a text's pieces up to an empty rest, so to join them gives a beginning of the text, and to split that
gives the same pieces (`split_rejoin`). The pieces are those that were found from left to right, and no
occurrence of the separator begins inside a piece, although a piece may end like a separator begins.
-/

namespace NovaBank.Java

section Pieces

variable {sep : List Char}

/-- The pieces with separators between them. -/
def joinPieces (sep : List Char) : List (List Char) → List Char
  | [] => []
  | p :: ps => p ++ ps.flatMap (sep ++ ·)

/-- The first piece is followed by a separator unless it is the only one. -/
theorem joinPieces_cons (p : List Char) {ps : List (List Char)} (hps : ps ≠ []) :
    joinPieces sep (p :: ps) = p ++ (sep ++ joinPieces sep ps) := by
  obtain ⟨q, qs, rfl⟩ := List.exists_cons_of_ne_nil hps
  simp [joinPieces]

/-- There is always a piece, if only an empty one. -/
theorem pieces_ne_nil (sep cur : List Char) (skip : ℕ) (s : List Char) :
    pieces sep cur skip s ≠ [] := by
  induction s generalizing cur skip with
  | nil => simp [pieces]
  | cons c cs ih =>
    cases skip with
    | zero =>
      rw [pieces]
      split_ifs
      · simp
      · exact ih _ _
    | succ skip => exact ih cur skip

/-- The characters of a separator are passed. -/
theorem pieces_skip (sep cur : List Char) (skip : ℕ) (s : List Char) :
    pieces sep cur skip s = pieces sep cur 0 (s.drop skip) := by
  induction s generalizing skip with
  | nil =>
    rw [List.drop_nil]
    rfl
  | cons c cs ih =>
    cases skip with
    | zero => rfl
    | succ skip => exact ih skip

/-- A separator ends the current piece. -/
theorem pieces_separator (hsep : sep ≠ []) (cur rest : List Char) :
    pieces sep cur 0 (sep ++ rest) = cur.reverse :: pieces sep [] 0 rest := by
  obtain ⟨c, cs, rfl⟩ := List.exists_cons_of_ne_nil hsep
  have hprefix : (c :: cs).isPrefixOf (c :: (cs ++ rest)) = true := by simp
  rw [List.cons_append, pieces, if_pos hprefix, pieces_skip]
  simp

/-- Where no separator begins, the character belongs to the current piece. -/
theorem pieces_character {c : Char} {cs : List Char} (h : ¬ sep <+: c :: cs) (cur : List Char) :
    pieces sep cur 0 (c :: cs) = pieces sep (c :: cur) 0 cs := by
  have hprefix : ¬ sep.isPrefixOf (c :: cs) = true := by rwa [List.isPrefixOf_iff_prefix]
  rw [pieces, if_neg hprefix]

/-- The pieces of a text, joined again, are the text. -/
theorem joinPieces_pieces (hsep : sep ≠ []) (s cur : List Char) :
    joinPieces sep (pieces sep cur 0 s) = cur.reverse ++ s := by
  -- On the length of the text: it is empty, begins with a separator, or with another character.
  induction hlength : s.length using Nat.strong_induction_on generalizing s cur with
  | _ l ih =>
    by_cases hbegins : sep <+: s
    · obtain ⟨rest, rfl⟩ := hbegins
      have hshorter : rest.length < l := by
        rw [← hlength, List.length_append]
        have := List.length_pos_iff.mpr hsep
        omega
      rw [pieces_separator hsep, joinPieces_cons _ (pieces_ne_nil _ _ _ _), ih _ hshorter rest [] rfl]
      simp
    · cases s with
      | nil => simp [pieces, joinPieces]
      | cons c cs =>
        rw [pieces_character hbegins, ih _ (by simp [← hlength]) cs (c :: cur) rfl]
        simp

/-- To join the first pieces gives a beginning of the text. -/
theorem joinPieces_prefix (sep : List Char) {ps qs : List (List Char)} (h : ps <+: qs) :
    joinPieces sep ps <+: joinPieces sep qs := by
  obtain ⟨rs, rfl⟩ := h
  cases ps with
  | nil => exact List.nil_prefix
  | cons p ps =>
    rw [List.cons_append, joinPieces, joinPieces, List.flatMap_append, ← List.append_assoc]
    exact List.prefix_append _ _

/-! ## Where separators begin -/

/-- No separator begins in `p` when `t` follows. -/
def Unbroken (sep p t : List Char) : Prop := ∀ b, b ≠ [] → b <:+ p → ¬ sep <+: b ++ t

/-- The rest of an unbroken piece is unbroken. -/
theorem Unbroken.tail {c : Char} {p t : List Char} (h : Unbroken sep (c :: p) t) : Unbroken sep p t :=
  fun b hb hsuffix => h b hb (hsuffix.trans (List.suffix_cons c p))

/-- What follows a separator does not matter, since a separator that begins before it ends in it. -/
theorem Unbroken.append {p : List Char} (h : Unbroken sep p sep) (t : List Char) :
    Unbroken sep p (sep ++ t) := by
  intro b hb hsuffix hprefix
  refine h b hb hsuffix (List.prefix_of_prefix_length_le hprefix ?_ ?_)
  · rw [← List.append_assoc]
    exact List.prefix_append _ _
  · simp

/-- What a separator does not break before a longer text, it does not before the beginning of that. -/
theorem Unbroken.of_append {p t u : List Char} (h : Unbroken sep p (t ++ u)) : Unbroken sep p t := by
  intro b hb hsuffix hbegins
  refine h b hb hsuffix (hbegins.trans ?_)
  rw [← List.append_assoc]
  exact List.prefix_append _ _

/-- A text in which no separator begins is part of the current piece. -/
theorem pieces_append {p t : List Char} (h : Unbroken sep p t) (cur : List Char) :
    pieces sep cur 0 (p ++ t) = pieces sep (p.reverse ++ cur) 0 t := by
  induction p generalizing cur with
  | nil => rfl
  | cons c p ih =>
    have hbegins : ¬ sep <+: c :: (p ++ t) := h (c :: p) (by simp) List.suffix_rfl
    rw [List.cons_append, pieces_character hbegins, ih h.tail]
    simp

/-- Texts that are the pieces of what they are joined to: no separator begins in the last one, nor in
another one with the separator behind it. -/
def Separated (sep : List Char) : List (List Char) → Prop
  | [] => True
  | p :: ps => Unbroken sep p (if ps = [] then [] else sep) ∧ Separated sep ps

/-- Pieces between which only the separators are found come back from their text. -/
theorem pieces_joinPieces (hsep : sep ≠ []) {p : List Char} {ps : List (List Char)}
    (h : Separated sep (p :: ps)) : pieces sep [] 0 (joinPieces sep (p :: ps)) = p :: ps := by
  induction ps generalizing p with
  | nil =>
    have hp : Unbroken sep p [] := h.1
    rw [joinPieces, List.flatMap_nil, pieces_append hp]
    simp [pieces]
  | cons q qs ih =>
    have hp : Unbroken sep p sep := h.1
    rw [joinPieces_cons p (by simp), pieces_append (hp.append _), pieces_separator hsep, ih h.2]
    simp

/-- The pieces of a text are separated. -/
theorem separated_pieces (hsep : sep ≠ []) (s cur : List Char) (hcur : Unbroken sep cur.reverse s) :
    Separated sep (pieces sep cur 0 s) := by
  -- On the length of the text, with what is known of the current piece.
  induction hlength : s.length using Nat.strong_induction_on generalizing s cur with
  | _ l ih =>
    by_cases hbegins : sep <+: s
    · obtain ⟨rest, rfl⟩ := hbegins
      have hshorter : rest.length < l := by
        rw [← hlength, List.length_append]
        have := List.length_pos_iff.mpr hsep
        omega
      have hempty : Unbroken sep ([] : List Char).reverse rest := fun b hb hsuffix =>
        absurd (List.suffix_nil.mp hsuffix) hb
      rw [pieces_separator hsep]
      refine ⟨?_, ih _ hshorter rest [] hempty rfl⟩
      rw [if_neg (pieces_ne_nil _ _ _ _)]
      exact hcur.of_append
    · cases s with
      | nil => exact ⟨hcur, trivial⟩
      | cons c cs =>
        rw [pieces_character hbegins]
        refine ih _ (by simp [← hlength]) cs (c :: cur) ?_ rfl
        intro b hb hsuffix
        rw [List.reverse_cons] at hsuffix
        -- The last character of the new piece, or it with an end of the old one.
        obtain ⟨b', rfl⟩ : ∃ b', b = b' ++ [c] := by
          rcases List.suffix_concat_iff.mp hsuffix with h | ⟨b', h, -⟩
          · exact absurd h hb
          · exact ⟨b', h⟩
        have hsuffix' : b' <:+ cur.reverse := by
          rcases List.suffix_concat_iff.mp hsuffix with h | ⟨b'', h, hb''⟩
          · simp at h
          · rwa [(List.append_inj' h rfl).1]
        rw [List.append_assoc]
        by_cases hb' : b' = []
        · rw [hb']
          exact hbegins
        · exact hcur b' hb' hsuffix'

/-- To leave out some of the texts keeps the others separated. -/
theorem Separated.sublist {ps qs : List (List Char)} (h : Separated sep qs) (hsub : ps.Sublist qs) :
    Separated sep ps := by
  induction hsub with
  | slnil => trivial
  | cons q _ ih => exact ih h.2
  -- The piece after `q` may have been left out, and a shorter text follows.
  | @cons_cons ps qs q hsub ih =>
    refine ⟨?_, ih h.2⟩
    have hq := h.1
    by_cases hqs : qs = []
    · subst hqs
      rwa [List.sublist_nil.mp hsub]
    · rw [if_neg hqs] at hq
      split_ifs
      · exact hq.of_append (t := [])
      · exact hq

/-- Pieces that none of their separators breaks are separated. -/
theorem Separated.of_forall {ps : List (List Char)} (h : ∀ p ∈ ps, Unbroken sep p sep) :
    Separated sep ps := by
  induction ps with
  | nil => trivial
  | cons p ps ih =>
    have hp : Unbroken sep p sep := h p (by simp)
    refine ⟨?_, ih fun q hq => h q (by simp [hq])⟩
    split_ifs
    · exact hp.of_append (t := [])
    · exact hp

/-- A text without the first character of the separator. -/
theorem Unbroken.of_begins {p : List Char} (hsep : sep ≠ []) (hp : ∀ c ∈ p, sep.head? ≠ some c)
    (t : List Char) : Unbroken sep p t := by
  intro b hb hsuffix hprefix
  obtain ⟨d, ds, rfl⟩ := List.exists_cons_of_ne_nil hsep
  obtain ⟨c, cs, rfl⟩ := List.exists_cons_of_ne_nil hb
  exact hp c (hsuffix.subset (by simp)) (congrArg some (List.cons_prefix_cons.mp hprefix).1)

/-- A text without the second character of the separator. -/
theorem Unbroken.of_second {x c : Char} {rest p : List Char} (hx : x ≠ c) (hp : c ∉ p) :
    Unbroken (x :: c :: rest) p (x :: c :: rest) := by
  intro b hb hsuffix hprefix
  -- The second character would be in the text, or the first one of the separator.
  obtain ⟨d, ds, rfl⟩ := List.exists_cons_of_ne_nil hb
  have hsecond := (List.cons_prefix_cons.mp hprefix).2
  cases ds with
  | nil => exact hx (List.cons_prefix_cons.mp hsecond).1.symm
  | cons e es =>
    have he : c = e := (List.cons_prefix_cons.mp hsecond).1
    exact hp (hsuffix.subset (by simp [he]))

end Pieces

/-! ## Texts -/

/-- `first + sep + r₁ + sep + r₂ + …` for the texts `r₁`, `r₂`, … of `rest`. -/
def rejoin (sep first : String) (rest : List String) : String :=
  rest.foldl (fun acc r => acc ++ sep ++ r) first

/-- The characters of a text that was put together again. -/
theorem toList_rejoin (sep first : String) (rest : List String) :
    (rejoin sep first rest).toList =
      joinPieces sep.toList (first.toList :: rest.map String.toList) := by
  induction rest generalizing first with
  | nil => simp [rejoin, joinPieces]
  | cons r rest ih =>
    have hstep : rejoin sep first (r :: rest) = rejoin sep (first ++ sep ++ r) rest := rfl
    rw [hstep, ih]
    simp [joinPieces]

/-- The pieces that `split` keeps. -/
def keptPieces (ps : List (List Char)) : List (List Char) :=
  if ps.length = 1 then ps else ps.rdropWhile List.isEmpty

/-- `split` on characters: the pieces without the empty ones at the end. -/
theorem split_eq (sep s : String) :
    split sep s = (keptPieces (pieces sep.toList [] 0 s.toList)).map String.ofList := rfl

/-- The pieces that are kept are the first ones. -/
theorem isPrefix_keptPieces (ps : List (List Char)) : keptPieces ps <+: ps := by
  unfold keptPieces
  split_ifs
  · exact List.prefix_rfl
  · exact List.rdropWhile_prefix _ _

/-- What is kept is kept again. -/
theorem keptPieces_keptPieces (ps : List (List Char)) :
    keptPieces (keptPieces ps) = keptPieces ps := by
  by_cases hps : ps.length = 1
  · simp [keptPieces, hps]
  · have hkept : keptPieces ps = ps.rdropWhile List.isEmpty := if_neg hps
    rw [hkept, keptPieces]
    split_ifs
    · rfl
    · exact List.rdropWhile_idempotent _ _

/-- The characters of the pieces that `split` returns. -/
theorem toList_of_split {sep s : String} {rs : List String} (h : split sep s = rs) :
    keptPieces (pieces sep.toList [] 0 s.toList) = rs.map String.toList := by
  rw [← h, split_eq, List.map_map]
  simp [Function.comp_def]

/-- Separated texts are the pieces of what they are joined to. -/
theorem split_rejoin_of_separated {sep first : String} {rest : List String} (hsep : sep ≠ "")
    (h : Separated sep.toList ((first :: rest).map String.toList)) :
    split sep (rejoin sep first rest) =
      (keptPieces ((first :: rest).map String.toList)).map String.ofList := by
  rw [split_eq, toList_rejoin, ← List.map_cons, List.map_cons,
    pieces_joinPieces (by simpa using hsep) h]

/-- What `split` returns is separated, and stays so when some of it is left out. -/
theorem separated_of_split {sep s : String} {rs : List String} (hsep : sep ≠ "")
    (h : rs.Sublist (split sep s)) : Separated sep.toList (rs.map String.toList) := by
  have hempty : Unbroken sep.toList ([] : List Char).reverse s.toList := fun b hb hsuffix =>
    absurd (List.suffix_nil.mp hsuffix) hb
  have hall := separated_pieces (by simpa using hsep) s.toList [] hempty
  refine hall.sublist ((h.map String.toList).trans ?_)
  rw [← toList_of_split rfl]
  exact (isPrefix_keptPieces _).sublist

/-- The pieces of a text are those of a beginning of it, which is what they are joined to. -/
theorem split_rejoin {sep s first : String} {rest : List String} (hsep : sep ≠ "")
    (h : split sep s = first :: rest) :
    split sep (rejoin sep first rest) = first :: rest ∧ (rejoin sep first rest).toList <+: s.toList := by
  have hne : sep.toList ≠ [] := by simpa using hsep
  have hkept := toList_of_split h
  constructor
  · rw [split_rejoin_of_separated hsep (separated_of_split hsep (by rw [h])), ← hkept,
      keptPieces_keptPieces, ← split_eq, h]
  · have hprefix := joinPieces_prefix sep.toList (isPrefix_keptPieces (pieces sep.toList [] 0 s.toList))
    rwa [hkept, joinPieces_pieces hne, List.map_cons, ← toList_rejoin] at hprefix

/-! ## Joining some of the pieces -/

/-- A first piece that is not empty is kept. -/
theorem exists_split_of_pieces {sep s first : String} {ps : List (List Char)}
    (h : pieces sep.toList [] 0 s.toList = first.toList :: ps) (hfirst : first ≠ "") :
    ∃ rest, split sep s = first :: rest := by
  have hkept : keptPieces (first.toList :: ps) ≠ [] := by
    unfold keptPieces
    split_ifs
    · simp
    · rw [Ne, List.rdropWhile_eq_nil_iff]
      intro hall
      exact hfirst (by simpa using hall first.toList (by simp))
  obtain ⟨q, qs, hcons⟩ := List.exists_cons_of_ne_nil hkept
  -- What is kept begins like all pieces.
  have hq : q = first.toList := by
    have hprefix := isPrefix_keptPieces (first.toList :: ps)
    rw [hcons] at hprefix
    exact (List.cons_prefix_cons.mp hprefix).1
  refine ⟨qs.map String.ofList, ?_⟩
  rw [split_eq, h, hcons, hq, List.map_cons, String.ofList_toList]

/-- The pieces of joined texts begin with the first of these, when no separator begins in it. -/
theorem exists_split_rejoin {sep first : String} (hsep : sep ≠ "") (hfirst : first ≠ "")
    (h : Unbroken sep.toList first.toList sep.toList) (rest : List String) :
    ∃ rest', split sep (rejoin sep first rest) = first :: rest' := by
  have hpieces : ∃ ps, pieces sep.toList [] 0 (rejoin sep first rest).toList = first.toList :: ps := by
    rw [toList_rejoin]
    -- The first piece ends at the end, or at the first separator.
    cases rest with
    | nil =>
      rw [List.map_nil, joinPieces, List.flatMap_nil, pieces_append (h.of_append (t := []))]
      exact ⟨[], by simp [pieces]⟩
    | cons r rest =>
      rw [List.map_cons, joinPieces_cons _ (by simp), pieces_append (h.append _),
        pieces_separator (by simpa using hsep), List.append_nil, List.reverse_reverse]
      exact ⟨_, rfl⟩
  obtain ⟨ps, hps⟩ := hpieces
  exact exists_split_of_pieces hps hfirst

/-- Texts in which no separator begins are what `split` returns of what they are joined to, when the
last of them is not empty. -/
theorem split_rejoin_of_unbroken {sep first last : String} (hsep : sep ≠ "") (rest : List String)
    (h : ∀ q ∈ first :: (rest ++ [last]), Unbroken sep.toList q.toList sep.toList) (hlast : last ≠ "") :
    split sep (rejoin sep first (rest ++ [last])) = first :: (rest ++ [last]) := by
  have hseparated : Separated sep.toList ((first :: (rest ++ [last])).map String.toList) := by
    refine .of_forall fun p hp => ?_
    obtain ⟨q, hq, rfl⟩ := List.mem_map.mp hp
    exact h q hq
  -- Nothing is dropped, since the last piece is not empty.
  have hkept : keptPieces ((first :: (rest ++ [last])).map String.toList) =
      (first :: (rest ++ [last])).map String.toList := by
    unfold keptPieces
    split_ifs
    · rfl
    · rw [List.rdropWhile_eq_self_iff]
      intro hne
      simpa using hlast
  rw [split_rejoin_of_separated hsep hseparated, hkept, List.map_map]
  simp [Function.comp_def]

/-- A separator of one character is in no piece. -/
theorem not_mem_of_mem_split {sep s p : String} {c : Char} (hsep : sep.toList = [c])
    (h : p ∈ split sep s) : c ∉ p.toList := by
  intro hc
  have hne : sep ≠ "" := by
    rintro rfl
    simp at hsep
  have hone := separated_of_split hne (List.singleton_sublist.mpr h)
  obtain ⟨a, b, hp⟩ := List.append_of_mem hc
  refine hone.1 (c :: b) (by simp) ⟨a, hp.symm⟩ ?_
  simp [hsep]

/-- A text without some character of the separator is one piece. -/
theorem split_of_not_mem {sep s : String} {c : Char} (hsep : c ∈ sep.toList) (hs : c ∉ s.toList) :
    split sep s = [s] := by
  have hunbroken : Unbroken sep.toList s.toList [] := by
    intro b _ hsuffix hbegins
    rw [List.append_nil] at hbegins
    exact hs (hsuffix.subset (hbegins.subset hsep))
  have hpieces := pieces_append hunbroken []
  rw [List.append_nil, List.append_nil] at hpieces
  rw [split_eq, hpieces]
  simp [pieces, keptPieces]

/-- When no weight is lost by a filter, nothing is. -/
theorem all_of_sum_le_filter {α : Type} {f : α → ℕ} (hf : ∀ a, 0 < f a) {keep : α → Bool} {l : List α}
    (h : (l.map f).sum ≤ ((l.filter keep).map f).sum) : ∀ a ∈ l, keep a = true := by
  have hle : ∀ l : List α, ((l.filter keep).map f).sum ≤ (l.map f).sum := by
    intro l
    induction l with
    | nil => rfl
    | cons a l ih =>
      by_cases ha : keep a = true
      · simpa [ha] using ih
      · rw [List.filter_cons_of_neg ha, List.map_cons, List.sum_cons]
        omega
  induction l with
  | nil => simp
  | cons a l ih =>
    -- Leaving out an element with a positive weight would make the sum smaller.
    have ha : keep a = true := by
      by_contra ha
      rw [List.filter_cons_of_neg ha, List.map_cons, List.sum_cons] at h
      have := hle l
      have := hf a
      omega
    simp only [List.filter_cons, ha, if_true, List.map_cons, List.sum_cons,
      Nat.add_le_add_iff_left] at h
    simpa [ha] using ih h

/-- After a first piece that is not empty, the empty ones at the end are dropped. -/
theorem keptPieces_cons {p : List Char} (hp : p ≠ []) (ps : List (List Char)) :
    keptPieces (p :: ps) = p :: ps.rdropWhile List.isEmpty := by
  have hone : List.rdropWhile List.isEmpty [p] = [p] := by
    rw [List.rdropWhile_singleton, if_neg (by simpa using hp)]
  have hdrop : List.rdropWhile List.isEmpty (p :: ps) = p :: ps.rdropWhile List.isEmpty := by
    induction ps using List.reverseRecOn with
    | nil => exact hone
    | append_singleton ps q ih =>
      rw [← List.cons_append, List.rdropWhile_concat, List.rdropWhile_concat, ih]
      split_ifs <;> rfl
  cases ps with
  | nil => rfl
  | cons q qs => rw [keptPieces, if_neg (by simp), hdrop]

/-- To join a first piece with some of the later ones and to split that gives these pieces, without the
empty ones at the end. -/
theorem split_rejoin_of_sublist {sep s first : String} (hsep : sep ≠ "") (hfirst : first ≠ "")
    {rs : List String} (h : (first :: rs).Sublist (split sep s)) :
    split sep (rejoin sep first rs) = first :: rs.rdropWhile fun r => r.toList.isEmpty := by
  have hmap : (rs.map String.toList).rdropWhile List.isEmpty =
      (rs.rdropWhile fun r => r.toList.isEmpty).map String.toList := by
    rw [List.rdropWhile, ← List.map_reverse, List.dropWhile_map, ← List.map_reverse]
    rfl
  rw [split_rejoin_of_separated hsep (separated_of_split hsep h), List.map_cons,
    keptPieces_cons (by simpa using hfirst), hmap, ← List.map_cons, List.map_map]
  simp [Function.comp_def]

/-- What is dropped at the end is what may be dropped. -/
theorem mem_rdropWhile {α : Type} {p : α → Bool} {x : α} (hx : p x = false) (l : List α) :
    x ∈ l.rdropWhile p ↔ x ∈ l := by
  refine ⟨fun h => (List.rdropWhile_prefix p l).subset h, fun h => ?_⟩
  rw [← List.rdropWhile_append_rtakeWhile (p := p) (l := l), List.mem_append] at h
  rcases h with h | h
  · exact h
  · exact absurd (List.mem_rtakeWhile_imp h) (by simp [hx])

/-- The length of a text that was put together again. -/
theorem length_rejoin (sep first : String) (rest : List String) :
    (rejoin sep first rest).toList.length =
      first.toList.length + (rest.map fun r => (sep.toList ++ r.toList).length).sum := by
  rw [toList_rejoin, joinPieces, List.length_append, List.length_flatMap, List.map_map]
  rfl

/-- A text that is put together again from the pieces of another one after a first piece, some of them
left out, has the pieces of that other text exactly when these begin with the first piece and none of
the others is left out. -/
theorem split_rejoin_filter_iff {sep first : String} (hsep : sep ≠ "") (hfirst : first ≠ "")
    (hbegins : ∀ c ∈ first.toList, sep.toList.head? ≠ some c) {keep : String → Bool}
    (hkeep : keep first = false) (s : String) :
    split sep (rejoin sep first ((split sep s).filter keep)) = split sep s ↔
      ∃ rest, split sep s = first :: rest ∧ ∀ r ∈ rest, keep r = true := by
  constructor
  · intro h
    have hunbroken := Unbroken.of_begins (by simpa using hsep) hbegins sep.toList
    obtain ⟨rest, hrest⟩ := exists_split_rejoin hsep hfirst hunbroken ((split sep s).filter keep)
    rw [h] at hrest
    refine ⟨rest, hrest, ?_⟩
    -- The pieces are joined to a beginning of the text, which would be too short for them.
    rw [hrest, List.filter_cons_of_neg (by simp [hkeep])] at h
    have hlength := (split_rejoin hsep h).2.length_le
    rw [length_rejoin, length_rejoin, Nat.add_le_add_iff_left] at hlength
    refine all_of_sum_le_filter (fun r => ?_) hlength
    rw [List.length_append]
    have : sep.toList ≠ [] := by simpa using hsep
    have := List.length_pos_iff.mpr this
    omega
  · rintro ⟨rest, hrest, hall⟩
    rw [hrest, List.filter_cons_of_neg (by simp [hkeep]), List.filter_eq_self.mpr hall]
    exact (split_rejoin hsep hrest).1

end NovaBank.Java
