/- # White space between words — what trimming and cutting leave alone

`Edged` texts are those that trimming has nothing to do with; trimming any
text gives an edged one (`edged_trim`), and an edged text comes back from
whatever blanks are put around it (`trim_surround`).  Cutting at white space
is described in the same way: a word that is followed by white space or by
nothing is the first one (`words_append`, `splitWord_append`).
-/
import ProductLine.Text.Words

namespace ProductLine.Text

variable {cs ds before after word rest : List Char}

/-- There is nothing but white space. -/
def Blank (cs : List Char) : Prop :=
  ∀ c ∈ cs, isBlank c = true

theorem blank_nil : Blank [] := nofun

theorem blank_space : Blank [' '] := List.forall_mem_singleton.mpr rfl

theorem Blank.append (hcs : Blank cs) (hds : Blank ds) : Blank (cs ++ ds) :=
  List.forall_mem_append.mpr ⟨hcs, hds⟩

/-- Neither the first nor the last character is white space. -/
structure Edged (cs : List Char) : Prop where
  head : ∀ c ∈ cs.head?, isBlank c = false
  last : ∀ c ∈ cs.getLast?, isBlank c = false

theorem edged_nil : Edged [] := ⟨nofun, nofun⟩

/-- A text without white space has none at its ends. -/
theorem edged_of_forall (h : ∀ c ∈ cs, isBlank c = false) : Edged cs where
  head c hc := h c (List.mem_of_mem_head? hc)
  last c hc := h c (List.mem_of_mem_getLast? hc)

/-- A text that does not begin with white space has something else. -/
theorem Edged.visible (h : Edged cs) (nonempty : cs ≠ []) : ∃ c ∈ cs, isBlank c = false := by
  obtain ⟨c, cs, rfl⟩ := List.exists_cons_of_ne_nil nonempty
  exact ⟨c, List.mem_cons_self, h.head c rfl⟩

/-! ## Trimming -/

theorem dropWhile_of_blank (h : Blank cs) : cs.dropWhile isBlank = [] := by
  rw [← List.append_nil cs, List.dropWhile_append_of_pos h, List.dropWhile_nil]

theorem dropWhile_isBlank_eq_self (h : ∀ c ∈ cs.head?, isBlank c = false) :
    cs.dropWhile isBlank = cs := by
  cases cs with
  | nil => rfl
  | cons c cs => simp [h c rfl]

theorem head?_dropWhile_isBlank (cs : List Char) :
    ∀ c ∈ (cs.dropWhile isBlank).head?, isBlank c = false := by
  intro c hc
  have := List.head?_dropWhile_not isBlank cs
  rw [Option.mem_def.mp hc] at this
  simpa using this

theorem trimEnd_append (blank : Blank after) (h : ∀ c ∈ cs.getLast?, isBlank c = false) :
    trimEnd (cs ++ after) = cs := by
  have dropped : ∀ c ∈ after.reverse, isBlank c = true := fun c hc =>
    blank c (List.mem_reverse.mp hc)
  unfold trimEnd
  rw [List.reverse_append, List.dropWhile_append_of_pos dropped, dropWhile_isBlank_eq_self,
    List.reverse_reverse]
  rwa [List.head?_reverse]

/-- Blanks around a text without blanks at its ends are what trimming removes. -/
theorem trim_surround (hbefore : Blank before) (hafter : Blank after) (edged : Edged cs) :
    trim (before ++ (cs ++ after)) = cs := by
  unfold trim
  rw [List.dropWhile_append_of_pos hbefore]
  cases cs with
  | nil =>
    rw [List.nil_append, dropWhile_of_blank hafter]
    rfl
  | cons c cs =>
    have stops : (c :: cs ++ after).dropWhile isBlank = c :: cs ++ after :=
      dropWhile_isBlank_eq_self edged.head
    rw [stops]
    exact trimEnd_append hafter edged.last

theorem trim_of_edged (edged : Edged cs) : trim cs = cs := by
  have around : trim ([] ++ (cs ++ [])) = cs := trim_surround blank_nil blank_nil edged
  rwa [List.nil_append, List.append_nil] at around

theorem edged_trim (cs : List Char) : Edged (trim cs) := by
  have head := head?_dropWhile_isBlank cs
  have last := head?_dropWhile_isBlank (cs.dropWhile isBlank).reverse
  unfold trim trimEnd
  generalize cs.dropWhile isBlank = ds at head last
  constructor
  case head =>
    -- what is left of `ds` begins as `ds` does
    intro c hc
    have start : (ds.reverse.dropWhile isBlank).reverse <+: ds := by
      have ending := List.dropWhile_suffix isBlank (l := ds.reverse)
      rwa [← List.reverse_prefix, List.reverse_reverse] at ending
    obtain ⟨rest, hrest⟩ := start
    refine head c ?_
    rw [← hrest, List.head?_append, Option.mem_def.mp hc]
    rfl
  case last =>
    rwa [List.getLast?_reverse]

/-- Every text is its trimmed one with blanks around it. -/
theorem exists_surround_trim (cs : List Char) :
    ∃ before after, Blank before ∧ Blank after ∧ cs = before ++ (trim cs ++ after) := by
  refine ⟨cs.takeWhile isBlank, ((cs.dropWhile isBlank).reverse.takeWhile isBlank).reverse,
    List.all_eq_true.mp List.all_takeWhile, fun c hc => ?_, ?_⟩
  · exact List.all_eq_true.mp List.all_takeWhile c (List.mem_reverse.mp hc)
  · rw [trim, trimEnd, ← List.reverse_append, List.takeWhile_append_dropWhile, List.reverse_reverse,
      List.takeWhile_append_dropWhile]

/-- More blanks make no difference to trimming. -/
theorem trim_blank_append (hbefore : Blank before) (hafter : Blank after) (cs : List Char) :
    trim (before ++ (cs ++ after)) = trim cs := by
  obtain ⟨left, right, hleft, hright, hcs⟩ := exists_surround_trim cs
  have wider : before ++ (cs ++ after) = (before ++ left) ++ (trim cs ++ (right ++ after)) := by
    simpa only [List.append_assoc] using congrArg (fun text => before ++ (text ++ after)) hcs
  rw [wider]
  exact trim_surround (hbefore.append hleft) (hright.append hafter) (edged_trim cs)

theorem trim_subset (cs : List Char) : trim cs ⊆ cs := by
  obtain ⟨before, after, -, -, hcs⟩ := exists_surround_trim cs
  intro c hc
  rw [hcs]
  exact List.mem_append_right _ (List.mem_append_left _ hc)

/-- The edges of what is put together are those of its first and its last part. -/
theorem Edged.join (hcs : Edged cs) (hds : Edged ds) (nonempty : cs ≠ []) (nonempty' : ds ≠ [])
    (between : List Char) : Edged (cs ++ (between ++ ds)) where
  head := by
    obtain ⟨c, cs, rfl⟩ := List.exists_cons_of_ne_nil nonempty
    exact hcs.head
  last := by
    intro c hc
    refine hds.last c ?_
    rwa [← List.append_assoc, List.getLast?_append, List.getLast?_eq_some_getLast nonempty',
      Option.some_or, ← List.getLast?_eq_some_getLast nonempty'] at hc

/-- The characters of a list of words with something between them. -/
theorem mem_of_mem_intercalate {α : Type} {x : α} {between : List α} {words : List (List α)}
    (h : x ∈ between.intercalate words) : x ∈ between ∨ ∃ word ∈ words, x ∈ word := by
  induction words with
  | nil => cases h
  | cons word words ih =>
    cases words with
    | nil => exact .inr ⟨word, List.mem_cons_self, by simpa using h⟩
    | cons next words =>
      rw [List.intercalate_cons_cons, List.append_assoc, List.mem_append, List.mem_append] at h
      rcases h with hword | hbetween | hrest
      · exact .inr ⟨word, List.mem_cons_self, hword⟩
      · exact .inl hbetween
      · exact (ih hrest).imp_right fun ⟨other, hmem, hx⟩ => ⟨other, List.mem_cons_of_mem _ hmem, hx⟩

/-- Words with anything between them. -/
theorem edged_intercalate {words : List (List Char)} (between : List Char)
    (h : ∀ word ∈ words, word ≠ [] ∧ Edged word) : Edged (between.intercalate words) := by
  induction words with
  | nil => exact edged_nil
  | cons word words ih =>
    obtain ⟨⟨nonempty, edged⟩, hwords⟩ := List.forall_mem_cons.mp h
    cases words with
    | nil => simpa using edged
    | cons next words =>
      rw [List.intercalate_cons_cons, List.append_assoc]
      have rest : between.intercalate (next :: words) ≠ [] := by
        have first := (hwords next List.mem_cons_self).1
        cases words <;> simp [List.intercalate_cons_cons, first]
      exact edged.join (ih hwords) nonempty rest between

/-! ## Spaces -/

/-- Spaces are the only white space. -/
def Spaced (cs : List Char) : Prop :=
  ∀ c ∈ cs, isBlank c = true → c = ' '

theorem spaced_of_forall (h : ∀ c ∈ cs, isBlank c = false) : Spaced cs := fun c hc blank =>
  absurd blank (Bool.eq_false_iff.mp (h c hc))

theorem spaced_of_all (h : (cs.all fun c => c == ' ' || !isBlank c) = true) : Spaced cs := by
  intro c hc blank
  have seen := List.all_eq_true.mp h c hc
  rwa [blank, Bool.not_true, Bool.or_false, beq_iff_eq] at seen

theorem spaced_space : Spaced [' '] := spaced_of_all rfl

theorem spaced_append_iff : Spaced (cs ++ ds) ↔ Spaced cs ∧ Spaced ds :=
  List.forall_mem_append

theorem spaced_intercalate {between : List Char} {words : List (List Char)}
    (hbetween : Spaced between) (h : ∀ word ∈ words, Spaced word) :
    Spaced (between.intercalate words) := by
  intro c hc
  rcases mem_of_mem_intercalate hc with hc | ⟨word, hword, hc⟩
  · exact hbetween c hc
  · exact h word hword c hc

/-- No line ends where there are only spaces. -/
theorem Spaced.oneLine (h : Spaced cs) : ∀ c ∈ cs, c ≠ '\n' ∧ c ≠ '\r' := by
  intro c hc
  constructor <;> rintro rfl <;> exact absurd (h _ hc rfl) (by decide)

/-! ## Words -/

/-- A text that begins with white space or is empty. -/
def Breaks (rest : List Char) : Prop :=
  ∀ c ∈ rest.head?, isBlank c = true

theorem takeWhile_word (hword : ∀ c ∈ word, isBlank c = false) (breaks : Breaks rest) :
    (word ++ rest).takeWhile (!isBlank ·) = word ∧
      (word ++ rest).dropWhile (!isBlank ·) = rest := by
  have taken : ∀ c ∈ word, (!isBlank c) = true := fun c hc => by simp [hword c hc]
  rw [List.takeWhile_append_of_pos taken, List.dropWhile_append_of_pos taken]
  cases rest with
  | nil => simp
  | cons c rest => simp [breaks c rfl]

theorem words_of_nil (h : cs.dropWhile isBlank = []) : words cs = [] := by
  rw [words]
  split
  · rfl
  · simp_all

theorem words_of_cons {c : Char} (h : cs.dropWhile isBlank = c :: rest) : words cs =
    (c :: rest.takeWhile (!isBlank ·)) :: words (rest.dropWhile (!isBlank ·)) := by
  rw [words]
  split
  · simp_all
  · rename_i d ds hcs
    obtain ⟨rfl, rfl⟩ := List.cons.inj (h.symm.trans hcs)
    rfl

/-- The first word of a text ends where white space begins. -/
theorem words_append (nonempty : word ≠ []) (hword : ∀ c ∈ word, isBlank c = false)
    (breaks : Breaks rest) : words (word ++ rest) = word :: words rest := by
  obtain ⟨c, word, rfl⟩ := List.exists_cons_of_ne_nil nonempty
  obtain ⟨hc, hrest⟩ := List.forall_mem_cons.mp hword
  have stops : (c :: word ++ rest).dropWhile isBlank = c :: (word ++ rest) := by
    rw [List.cons_append, List.dropWhile_cons_of_neg (by simp [hc])]
  obtain ⟨htake, hdrop⟩ := takeWhile_word hrest breaks
  rw [words_of_cons stops, htake, hdrop]

theorem words_of_blank (blank : Blank before) : words (before ++ rest) = words rest := by
  have same : (before ++ rest).dropWhile isBlank = rest.dropWhile isBlank :=
    List.dropWhile_append_of_pos blank
  cases hrest : rest.dropWhile isBlank with
  | nil => rw [words_of_nil hrest, words_of_nil (same.trans hrest)]
  | cons c ds => rw [words_of_cons hrest, words_of_cons (same.trans hrest)]

theorem words_singleton (nonempty : word ≠ []) (hword : ∀ c ∈ word, isBlank c = false) :
    words word = [word] := by
  have stops : Breaks [] := nofun
  have none : words [] = [] := words_of_nil rfl
  have alone := words_append nonempty hword stops
  rwa [List.append_nil, none] at alone

/-- Words with a space between them come back. -/
theorem words_intercalate {ws : List (List Char)}
    (h : ∀ w ∈ ws, w ≠ [] ∧ ∀ c ∈ w, isBlank c = false) : words ([' '].intercalate ws) = ws := by
  induction ws with
  | nil => exact words_of_nil rfl
  | cons w ws ih =>
    obtain ⟨⟨nonempty, hw⟩, hws⟩ := List.forall_mem_cons.mp h
    cases ws with
    | nil =>
      rw [List.intercalate_singleton]
      exact words_singleton nonempty hw
    | cons next ws =>
      have breaks : Breaks ([' '] ++ [' '].intercalate (next :: ws)) := by
        rintro c ⟨⟩
        decide
      rw [List.intercalate_cons_cons, List.append_assoc, words_append nonempty hw breaks,
        words_of_blank blank_space, ih hws]

theorem breaks_dropWhile_append (breaks : Breaks after) (cs : List Char) :
    Breaks (cs.dropWhile (!isBlank ·) ++ after) := by
  intro c hc
  have stops := List.head?_dropWhile_not (!isBlank ·) cs
  cases hrest : cs.dropWhile (!isBlank ·) with
  | nil =>
    rw [hrest] at hc
    exact breaks c hc
  | cons d rest =>
    rw [hrest] at hc stops
    obtain rfl := Option.some.inj hc
    simpa using stops

/-- White space after a text is not in its words. -/
theorem words_append_blank (blank : Blank after) : words (cs ++ after) = words cs := by
  have breaks : Breaks after := fun c hc => blank c (List.mem_of_mem_head? hc)
  fun_induction words cs with
  | case1 cs hcs =>
    have rest : (cs ++ after).dropWhile isBlank = [] := by
      rw [List.dropWhile_append, hcs]
      exact dropWhile_of_blank blank
    exact words_of_nil rest
  | case2 cs c rest hcs ih =>
    have more : (cs ++ after).dropWhile isBlank = c :: (rest ++ after) := by
      rw [List.dropWhile_append, hcs]
      rfl
    have letters : ∀ d ∈ rest.takeWhile (!isBlank ·), isBlank d = false := by
      intro d hd
      simpa using List.all_eq_true.mp List.all_takeWhile d hd
    have cut : rest ++ after =
        rest.takeWhile (!isBlank ·) ++ (rest.dropWhile (!isBlank ·) ++ after) := by
      rw [← List.append_assoc, List.takeWhile_append_dropWhile]
    obtain ⟨htake, hdrop⟩ := takeWhile_word letters (breaks_dropWhile_append breaks rest)
    rw [words_of_cons more, cut, htake, hdrop, ih]

theorem words_trim (cs : List Char) : words (trim cs) = words cs := by
  obtain ⟨before, after, hbefore, hafter, hcs⟩ := exists_surround_trim cs
  have whole : words cs = words (before ++ (trim cs ++ after)) := congrArg words hcs
  rw [whole, words_of_blank hbefore, words_append_blank hafter]

/-- The first word of a text is what is cut off it. -/
theorem words_eq_splitWord (edged : Edged cs) (nonempty : cs ≠ []) :
    words cs = (splitWord cs).1 :: words (splitWord cs).2 := by
  obtain ⟨c, cs, rfl⟩ := List.exists_cons_of_ne_nil nonempty
  have hc : isBlank c = false := edged.head c rfl
  have stays : (c :: cs).dropWhile isBlank = c :: cs := dropWhile_isBlank_eq_self edged.head
  rw [words_of_cons stays, splitWord, words_trim, List.takeWhile_cons_of_pos (by simp [hc]),
    List.dropWhile_cons_of_pos (by simp [hc])]

theorem splitWord_append (hword : ∀ c ∈ word, isBlank c = false) (breaks : Breaks rest) :
    splitWord (word ++ rest) = (word, trim rest) := by
  obtain ⟨htake, hdrop⟩ := takeWhile_word hword breaks
  rw [splitWord, htake, hdrop]

end ProductLine.Text
