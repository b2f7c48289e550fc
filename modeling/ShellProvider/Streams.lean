import ShellProvider.Basic

/-!
# Splitting the stream declaration

`ExtractOutboundStreams` turns the space-delimited `OutputStreams` declaration of a new shell
into its array of stream names. It walks the string twice with `Tcschr`: a counting loop
sizes the array, then a fix-up loop over a copy of the string points each entry at a name
and overwrites the space after it with a NUL.

A cursor is the rest of the string from where it points (`some`), or `NULL` (`none`).
-/

namespace ShellProvider

/-- `Tcschr(cursor, c)` for a character other than NUL: the rest of the string from the first
`c`, or `NULL`. -/
def tcschr : List Char → Char → Option (List Char)
  | [], _ => none
  | x :: xs, c => if x = c then some (x :: xs) else tcschr xs c

/-- What `Tcschr` finds starts with the character searched for, inside the string. -/
theorem tcschr_eq_some {c : Char} :
    ∀ {l r : List Char}, tcschr l c = some r → ∃ rest, r = c :: rest ∧ r.length ≤ l.length
  | [], _, h => by simp [tcschr] at h
  | x :: xs, r, h => by
    simp only [tcschr] at h
    split at h
    · cases h; exact ⟨xs, by rw [‹x = c›], Nat.le_refl _⟩
    · obtain ⟨rest, hr, hl⟩ := tcschr_eq_some h
      exact ⟨rest, hr, Nat.le_succ_of_le hl⟩

/-- `if (cursor && *cursor) cursor++`. -/
def skipChar : Option (List Char) → Option (List Char)
  | some (_ :: rest) => some rest
  | cursor => cursor

/-- The length a cursor has left to walk, `NULL` counting as nothing. -/
def cursorLength : Option (List Char) → ℕ
  | some l => l.length + 1
  | none => 0

theorem cursorLength_skipChar_tcschr {c : Char} {l : List Char} :
    cursorLength (skipChar (tcschr l c)) < l.length + 1 := by
  rcases h : tcschr l c with _ | r
  · simp [skipChar, cursorLength]
  · obtain ⟨rest, rfl, hl⟩ := tcschr_eq_some h
    simp only [skipChar, cursorLength, List.length_cons] at hl ⊢
    omega

/-- The counting loop of `ExtractOutboundStreams`: `while (cursor && *cursor)`, one more
name, then on past the next space. -/
def countStreams : Option (List Char) → ℕ → ℕ
  | some (c :: cs), count => countStreams (skipChar (tcschr (c :: cs) ' ')) (count + 1)
  | some [], count => count
  | none, count => count
termination_by cursor => cursorLength cursor
decreasing_by exact cursorLength_skipChar_tcschr

/-- The fix-up loop of `ExtractOutboundStreams`, `count` iterations: name `i` runs from the
cursor to the space the same iteration overwrites with a NUL, or to the end. `Tcschr` of a
`NULL` cursor is undefined. -/
def fixupNames : ℕ → Option (List Char) → Except Fault (List (List Char))
  | 0, _ => .ok []
  | _ + 1, none => .error .nullDeref
  | n + 1, some cursor =>
    match fixupNames n (skipChar (tcschr cursor ' ')) with
    | .error f => .error f
    | .ok names => .ok (cursor.takeWhile (· ≠ ' ') :: names)

/-- `ExtractOutboundStreams`: the stream names, or `none` when the `malloc` of the name array
(`mallocOk = false`) fails. -/
def extractOutboundStreams (streams : List Char) (mallocOk : Bool) :
    Except Fault (Option (List (List Char))) :=
  if mallocOk then
    match fixupNames (countStreams (some streams) 0) (some streams) with
    | .error f => .error f
    | .ok names => .ok (some names)
  else .ok none

theorem countStreams_nil (count : ℕ) : countStreams (some []) count = count := by
  rw [countStreams]

theorem countStreams_cons (c : Char) (cs : List Char) (count : ℕ) :
    countStreams (some (c :: cs)) count =
      countStreams (skipChar (tcschr (c :: cs) ' ')) (count + 1) := by
  rw [countStreams]

theorem le_countStreams (cursor : Option (List Char)) (count : ℕ) :
    count ≤ countStreams cursor count := by
  match cursor with
  | some (c :: cs) =>
    rw [countStreams_cons]
    exact Nat.le_of_succ_le (le_countStreams _ (count + 1))
  | some [] => rw [countStreams_nil]
  | none => rw [countStreams]
termination_by cursorLength cursor
decreasing_by exact cursorLength_skipChar_tcschr

/-- **The declaration counts no stream exactly when it is empty.** -/
theorem countStreams_eq_zero_iff (streams : List Char) :
    countStreams (some streams) 0 = 0 ↔ streams = [] := by
  cases streams with
  | nil => simp [countStreams_nil]
  | cons c cs =>
    rw [countStreams_cons]
    have := le_countStreams (skipChar (tcschr (c :: cs) ' ')) 1
    simp only [Nat.zero_add, List.cons_ne_nil, iff_false]
    omega

theorem length_fixupNames : ∀ {n : ℕ} {cursor : Option (List Char)} {names : List (List Char)},
    fixupNames n cursor = .ok names → names.length = n
  | 0, _, _, h => by simp only [fixupNames, Except.ok.injEq] at h; rw [← h]; rfl
  | _ + 1, none, _, h => by simp [fixupNames] at h
  | n + 1, some cursor, names, h => by
    simp only [fixupNames] at h
    split at h
    · cases h
    · cases h; simp [length_fixupNames ‹_›]

/-- The names of an accepted declaration number as the counting loop found. -/
theorem extractOutboundStreams_length {streams : List Char} {names : List (List Char)}
    (h : extractOutboundStreams streams true = .ok (some names)) :
    names.length = countStreams (some streams) 0 := by
  simp only [extractOutboundStreams, if_true] at h
  split at h
  · cases h
  · cases h; exact length_fixupNames ‹_›

/-! ## Round trip -/

/-- The declaration a client writes for `names`: the names in order, one space between each
two. -/
def joinNames : List (List Char) → List Char
  | [] => []
  | [n] => n
  | n :: m :: rest => n ++ ' ' :: joinNames (m :: rest)

theorem tcschr_eq_none {c : Char} : ∀ {l : List Char}, c ∉ l → tcschr l c = none
  | [], _ => rfl
  | x :: xs, h => by
    rw [List.mem_cons, not_or] at h
    rw [tcschr, if_neg (Ne.symm h.1), tcschr_eq_none h.2]

theorem tcschr_append {c : Char} {t : List Char} :
    ∀ {l : List Char}, c ∉ l → tcschr (l ++ c :: t) c = some (c :: t)
  | [], _ => by simp [tcschr]
  | x :: xs, h => by
    rw [List.mem_cons, not_or] at h
    rw [List.cons_append, tcschr, if_neg (Ne.symm h.1), tcschr_append h.2]

/-- The counting loop passes one name and its space. -/
theorem countStreams_append_space {n t : List Char} (h : ' ' ∉ n) (count : ℕ) :
    countStreams (some (n ++ ' ' :: t)) count = countStreams (some t) (count + 1) := by
  cases n with
  | nil => simp [countStreams_cons, tcschr, skipChar]
  | cons c cs => rw [List.cons_append, countStreams_cons, ← List.cons_append, tcschr_append h]; rfl

theorem countStreams_joinNames : ∀ {names : List (List Char)}, (∀ n ∈ names, ' ' ∉ n) →
    names.getLast? ≠ some [] → ∀ count, countStreams (some (joinNames names)) count = count + names.length
  | [], _, _, count => countStreams_nil count
  | [[]], _, hl, _ => absurd rfl hl
  | [c :: cs], hs, _, count => by
    rw [joinNames, countStreams_cons, tcschr_eq_none (hs _ (List.mem_singleton_self _))]
    show countStreams none (count + 1) = _
    rw [countStreams]
    rfl
  | n :: m :: rest, hs, hl, count => by
    rw [joinNames, countStreams_append_space (hs n (List.mem_cons_self _ _)),
      countStreams_joinNames (fun x hx => hs x (List.mem_cons_of_mem _ hx))
        (by rwa [List.getLast?_cons_cons] at hl)]
    simp only [List.length_cons]
    omega

theorem fixupNames_joinNames : ∀ {names : List (List Char)}, (∀ n ∈ names, ' ' ∉ n) →
    fixupNames names.length (some (joinNames names)) = .ok names
  | [], _ => rfl
  | [n], hs => by
    simp only [List.length_singleton, joinNames, fixupNames, List.takeWhile_eq_self_iff.mpr
      (fun x hx => decide_eq_true (ne_of_mem_of_not_mem hx (hs n (List.mem_singleton_self _))))]
  | n :: m :: rest, hs => by
    have hn := hs n (List.mem_cons_self _ _)
    rw [List.length_cons, joinNames, fixupNames, tcschr_append hn, skipChar,
      fixupNames_joinNames (fun x hx => hs x (List.mem_cons_of_mem _ hx)),
      List.takeWhile_append_of_pos (fun x hx => decide_eq_true (ne_of_mem_of_not_mem hx hn))]
    simp

/-- **A declaration of space-free names, the last one not empty, is split back into its
names.** -/
theorem extractOutboundStreams_joinNames {names : List (List Char)}
    (hs : ∀ n ∈ names, ' ' ∉ n) (hl : names.getLast? ≠ some []) :
    extractOutboundStreams (joinNames names) true = .ok (some names) := by
  rw [extractOutboundStreams, if_pos rfl, countStreams_joinNames hs hl, Nat.zero_add,
    fixupNames_joinNames hs]

/-! ## The fields of a declaration

Both loops walk the declaration one field at a time, where a field ends at the next space or
at the end of the string. `fieldsInduction` is that walk as an induction principle, and each
fact about the two loops below is one induction over it. -/

/-- The fields of a declaration split at every space, in order, a single trailing empty field
dropped. -/
def streamFields (s : List Char) : List (List Char) :=
  if (s.splitOn ' ').getLast? = some [] then (s.splitOn ' ').dropLast else s.splitOn ' '

/-- A string with a space in it is its first field, the space, and the rest. -/
theorem exists_first_space : ∀ {s : List Char}, ' ' ∈ s → ∃ n t, ' ' ∉ n ∧ s = n ++ ' ' :: t
  | c :: cs, h => by
    by_cases hc : c = ' '
    · exact ⟨[], cs, List.not_mem_nil _, by rw [hc]; rfl⟩
    · obtain ⟨n, t, hn, rfl⟩ := exists_first_space ((List.mem_cons.mp h).resolve_left (Ne.symm hc))
      exact ⟨c :: n, t, by simp [hn, Ne.symm hc], rfl⟩

/-- Induction over a declaration field by field: a string without a space, or a first field,
a space, and the rest. -/
theorem fieldsInduction {motive : List Char → Prop} (last : ∀ s, ' ' ∉ s → motive s)
    (next : ∀ n t, ' ' ∉ n → motive t → motive (n ++ ' ' :: t)) (s : List Char) : motive s :=
  if h : ' ' ∈ s then by
    obtain ⟨n, t, hn, rfl⟩ := exists_first_space h
    have : t.length < (n ++ ' ' :: t).length := by simp; omega
    exact next n t hn (fieldsInduction last next t)
  else last s h
termination_by s.length

theorem streamFields_of_not_mem {s : List Char} (h : ' ' ∉ s) :
    streamFields s = if s = [] then [] else [s] := by
  have hs : s.splitOn ' ' = [s] :=
    List.splitOnP_eq_single _ _ fun x hx hb => h (eq_of_beq hb ▸ hx)
  by_cases he : s = [] <;> simp [streamFields, hs, he]

theorem streamFields_append_space {n : List Char} (t : List Char) (h : ' ' ∉ n) :
    streamFields (n ++ ' ' :: t) = n :: streamFields t := by
  have hs : (n ++ ' ' :: t).splitOn ' ' = n :: t.splitOn ' ' :=
    List.splitOnP_first (· == ' ') n (fun x hx hb => h (eq_of_beq hb ▸ hx)) ' ' (beq_self_eq_true _) t
  obtain ⟨f, fs, hf⟩ := List.exists_cons_of_ne_nil (List.splitOnP_ne_nil (· == ' ') t)
  have hf' : t.splitOn ' ' = f :: fs := hf
  unfold streamFields
  rw [hs, hf', List.getLast?_cons_cons, List.dropLast_cons₂]
  split <;> rfl

theorem streamFields_eq_nil_iff (s : List Char) : streamFields s = [] ↔ s = [] := by
  induction s using fieldsInduction with
  | last s h => rw [streamFields_of_not_mem h]; split <;> simp [*]
  | next n t hn _ => simp [streamFields_append_space t hn]

/-- The counting loop counts the fields. -/
theorem countStreams_streamFields (s : List Char) (count : ℕ) :
    countStreams (some s) count = count + (streamFields s).length := by
  induction s using fieldsInduction generalizing count with
  | last s h =>
    rw [streamFields_of_not_mem h]
    cases s with
    | nil => simp [countStreams_nil]
    | cons c cs =>
      rw [countStreams_cons, tcschr_eq_none h, if_neg (List.cons_ne_nil c cs)]
      show countStreams none (count + 1) = _
      rw [countStreams]
      rfl
  | next n t hn ih =>
    rw [countStreams_append_space hn, ih, streamFields_append_space t hn, List.length_cons]
    omega

/-- The fix-up loop, run as many times as there are fields, ends on the fields. -/
theorem fixupNames_streamFields (s : List Char) :
    fixupNames (streamFields s).length (some s) = .ok (streamFields s) := by
  induction s using fieldsInduction with
  | last s h =>
    rw [streamFields_of_not_mem h]
    split
    · rfl
    · simpa [fixupNames] using fun x (hx : x ∈ s) => ne_of_mem_of_not_mem hx h
  | next n t hn ih =>
    rw [streamFields_append_space t hn, List.length_cons, fixupNames, tcschr_append hn, skipChar,
      ih, List.takeWhile_append_of_pos (fun x hx => decide_eq_true (ne_of_mem_of_not_mem hx hn))]
    simp

theorem not_mem_of_mem_streamFields {s name : List Char} (h : name ∈ streamFields s) :
    ' ' ∉ name := by
  induction s using fieldsInduction with
  | last s hs =>
    rw [streamFields_of_not_mem hs] at h
    split at h
    · cases h
    · rwa [List.mem_singleton.mp h]
  | next n t hn ih =>
    rw [streamFields_append_space t hn, List.mem_cons] at h
    exact h.elim (fun e => e ▸ hn) ih

theorem joinNames_streamFields (s : List Char) :
    joinNames (streamFields s) = s ∨ joinNames (streamFields s) ++ [' '] = s := by
  induction s using fieldsInduction with
  | last s h =>
    left
    rw [streamFields_of_not_mem h]
    split
    · exact (‹s = []›).symm
    · rfl
  | next n t hn ih =>
    rw [streamFields_append_space t hn]
    rcases hf : streamFields t with _ | ⟨m, rest⟩
    · right
      rw [(streamFields_eq_nil_iff t).mp hf]
      rfl
    · rw [hf] at ih
      rw [joinNames]
      rcases ih with ih | ih
      · exact .inl (by rw [ih])
      · exact .inr (by rw [List.append_assoc, List.cons_append, ih])

/-- **The two loops agree on every declaration.** The counting loop counts the fields of the
declaration, so the fix-up cursor is never `NULL` and the names are the fields: no name holds a
space, and joining them with spaces gives the declaration back, less at most one trailing
space. -/
theorem extractOutboundStreams_streamFields (s : List Char) :
    countStreams (some s) 0 = (streamFields s).length ∧
      extractOutboundStreams s true = .ok (some (streamFields s)) ∧
      (∀ name ∈ streamFields s, ' ' ∉ name) ∧
      (joinNames (streamFields s) = s ∨ joinNames (streamFields s) ++ [' '] = s) := by
  have hc : countStreams (some s) 0 = (streamFields s).length := by
    rw [countStreams_streamFields, Nat.zero_add]
  refine ⟨hc, ?_, fun _ => not_mem_of_mem_streamFields, joinNames_streamFields s⟩
  rw [extractOutboundStreams, if_pos rfl, hc, fixupNames_streamFields]

/-- Repeated spaces give empty names; only the last trailing space is dropped. -/
example : streamFields [' ', 'o', ' ', ' ', 'e', ' ', ' '] = [[], ['o'], [], ['e'], []] := by
  decide

end ShellProvider
