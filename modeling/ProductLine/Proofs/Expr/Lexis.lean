/- # The lexical grammar — which token sequence a text spells

`Lexes` says what a text is at the level of tokens without scanning it: white
space only separates, six characters are tokens by themselves, and an
identifier is a name that no identifier character follows.  `scan` answers
exactly by this relation (`lexes_of_scan`, `scan_of_lexes`), so a text spells
at most one sequence; and it spells one if and only if each of its characters
belongs to the alphabet (`exists_lexes_iff`), wherever the character stands.
-/
import ProductLine.Expr.Token

namespace ProductLine

open Text (isBlank)

/-- The character is a token by itself. -/
inductive Spells : Char → Token → Prop where
  | and : Spells '&' .and
  | or : Spells '|' .or
  | not : Spells '!' .not
  | tilde : Spells '~' .not
  | opening : Spells '(' .opening
  | closing : Spells ')' .closing

/-- The text, read from left to right, spells the tokens. -/
inductive Lexes : List Char → List Token → Prop where
  | nil : Lexes [] []
  | blank {c : Char} {cs : List Char} {ts : List Token} :
      isBlank c = true → Lexes cs ts → Lexes (c :: cs) ts
  | symbol {c : Char} {t : Token} {cs : List Char} {ts : List Token} :
      Spells c t → Lexes cs ts → Lexes (c :: cs) (t :: ts)
  | name {f : Feature} {cs : List Char} {ts : List Token} :
      (∀ c ∈ cs.head?, isIdentifierChar c = false) → Lexes cs ts →
      Lexes (f.name.toList ++ cs) (.feature f :: ts)

/-- The characters that a text may have. -/
def InAlphabet (c : Char) : Prop :=
  isBlank c = true ∨ c ∈ ['&', '|', '!', '~', '(', ')'] ∨ isIdentifierChar c = true

/-! ## The three kinds of characters are apart -/

theorem ofSymbol?_eq_some_iff {c : Char} {t : Token} : Token.ofSymbol? c = some t ↔ Spells c t := by
  constructor
  · intro h
    unfold Token.ofSymbol? at h
    split at h <;> cases h <;> constructor
  · rintro ⟨⟩ <;> rfl

theorem isBlank_of_spells {c : Char} {t : Token} (h : Spells c t) : isBlank c = false := by
  cases h <;> decide

theorem mem_symbols_of_spells {c : Char} {t : Token} (h : Spells c t) :
    c ∈ ['&', '|', '!', '~', '(', ')'] := by
  cases h <;> decide

/-- The code point of an identifier character, by the four ranges. -/
theorem toNat_of_isIdentifierChar {c : Char} (h : isIdentifierChar c = true) :
    (48 ≤ c.toNat ∧ c.toNat ≤ 57) ∨ (65 ≤ c.toNat ∧ c.toNat ≤ 90) ∨ c.toNat = 95 ∨
      (97 ≤ c.toNat ∧ c.toNat ≤ 122) := by
  change (((decide ((65 : UInt32) ≤ c.val ∧ c.val ≤ 90) ||
    (decide ((97 : UInt32) ≤ c.val) && decide (c.val ≤ 122))) ||
    (decide ((48 : UInt32) ≤ c.val) && decide (c.val ≤ 57))) || c == '_') = true at h
  simp only [Bool.or_eq_true, Bool.and_eq_true, decide_eq_true_eq, beq_iff_eq,
    UInt32.le_iff_toNat_le] at h
  rcases h with ((h | h) | h) | rfl
  · exact .inr (.inl h)
  · exact .inr (.inr (.inr h))
  · exact .inl h
  · exact .inr (.inr (.inl rfl))

theorem isBlank_of_isIdentifierChar {c : Char} (h : isIdentifierChar c = true) :
    isBlank c = false := by
  have ranges := toNat_of_isIdentifierChar h
  simp only [isBlank, Text.blankRanges, List.any_cons, List.any_nil, Bool.or_false,
    Bool.or_eq_false_iff, Bool.and_eq_false_iff, decide_eq_false_iff_not]
  omega

theorem ofSymbol?_of_isIdentifierChar {c : Char} (h : isIdentifierChar c = true) :
    Token.ofSymbol? c = none := by
  refine Option.eq_none_iff_forall_ne_some.2 fun t ht => ?_
  cases ofSymbol?_eq_some_iff.1 ht <;> exact absurd h (by decide)

/-! ## Names -/

theorem Feature.toList_name_ne_nil (f : Feature) : f.name.toList ≠ [] := by
  intro h
  have nonempty := f.isIdentifier_name
  rw [isIdentifier, Bool.and_eq_true] at nonempty
  rw [String.toList_eq_nil_iff.mp h] at nonempty
  exact absurd nonempty.1 (by decide)

/-- A name is the run of identifier characters at the start of a text that goes on otherwise. -/
theorem span_name {f : Feature} {cs : List Char}
    (ends : ∀ c ∈ cs.head?, isIdentifierChar c = false) :
    ∃ c rest, ∃ h : isIdentifierChar c = true, f.name.toList ++ cs = c :: rest ∧
      Feature.ofRun c rest h = f ∧ rest.dropWhile isIdentifierChar = cs := by
  have letters : ∀ c ∈ f.name.toList, isIdentifierChar c = true :=
    fun _ => Feature.isIdentifierChar_of_mem_name
  obtain ⟨c, name, hname⟩ := List.exists_cons_of_ne_nil f.toList_name_ne_nil
  rw [hname] at letters
  have stops : cs.takeWhile isIdentifierChar = [] ∧ cs.dropWhile isIdentifierChar = cs := by
    cases cs with
    | nil => exact ⟨rfl, rfl⟩
    | cons d cs => simp [ends d rfl]
  have inner : ∀ d ∈ name, isIdentifierChar d = true := fun d hd => letters d (.tail _ hd)
  refine ⟨c, name ++ cs, letters c (.head _), by rw [hname, List.cons_append], ?_, ?_⟩
  · have run : (name ++ cs).takeWhile isIdentifierChar = name := by
      rw [List.takeWhile_append_of_pos inner, stops.1, List.append_nil]
    apply Feature.ext_name
    change String.ofList (c :: (name ++ cs).takeWhile isIdentifierChar) = f.name
    rw [run, ← hname, String.ofList_toList]
  · rw [List.dropWhile_append_of_pos inner, stops.2]

/-- What follows a run of identifier characters does not start with one. -/
theorem head?_dropWhile_identifier (cs : List Char) :
    ∀ c ∈ (cs.dropWhile isIdentifierChar).head?, isIdentifierChar c = false := by
  intro c hc
  have := List.head?_dropWhile_not isIdentifierChar cs
  rw [hc] at this
  simpa using this

/-- A text that starts with an identifier character is the name of the run and what follows it. -/
theorem toList_ofRun_append (c : Char) (rest : List Char) (h : isIdentifierChar c = true) :
    (Feature.ofRun c rest h).name.toList ++ rest.dropWhile isIdentifierChar = c :: rest := by
  rw [Feature.ofRun, String.toList_ofList, List.cons_append, List.takeWhile_append_dropWhile]

/-! ## The scanner -/

theorem map_cons_eq_ok {p : Placed} {x : Except SyntaxFault (List Placed)} {ts : List Placed}
    (h : x.map (p :: ·) = .ok ts) : ∃ us, x = .ok us ∧ p :: us = ts := by
  cases x with
  | error => cases h
  | ok us => exact ⟨us, rfl, Except.ok.inj h⟩

theorem eq_error_of_map_cons {p : Placed} {x : Except SyntaxFault (List Placed)}
    {fault : SyntaxFault} (h : x.map (p :: ·) = .error fault) : x = .error fault := by
  cases x with
  | error => exact congrArg Except.error (Except.error.inj h)
  | ok => cases h

/-- What the scanner returns spells the text. -/
theorem lexes_of_scan {column : Nat} {cs : List Char} {ts : List Placed}
    (h : scan column cs = .ok ts) : Lexes cs (ts.map Placed.token) := by
  fun_induction scan column cs generalizing ts with
  | case1 => cases h; exact .nil
  | case2 column c rest hblank ih => exact .blank hblank (ih h)
  | case3 column c rest hblank token hsymbol ih =>
    obtain ⟨us, hus, rfl⟩ := map_cons_eq_ok h
    exact .symbol (ofSymbol?_eq_some_iff.1 hsymbol) (ih hus)
  | case4 column c rest hblank hsymbol hletter column' =>
    rename_i ih
    obtain ⟨us, hus, rfl⟩ := map_cons_eq_ok h
    rw [← toList_ofRun_append c rest hletter]
    exact .name (head?_dropWhile_identifier rest) (ih hus)
  | case5 => cases h

/-- The scanner finds the tokens that a text spells, in whatever column the text starts. -/
theorem scan_of_lexes {cs : List Char} {ts : List Token} (h : Lexes cs ts) (column : Nat) :
    ∃ placed, scan column cs = .ok placed ∧ placed.map Placed.token = ts := by
  induction h generalizing column with
  | nil => exact ⟨[], by rw [scan], rfl⟩
  | @blank c cs ts hblank _ ih =>
    obtain ⟨placed, hscan, htokens⟩ := ih (column + 1)
    exact ⟨placed, by rw [scan, if_pos hblank, hscan], htokens⟩
  | @symbol c t cs ts hspells _ ih =>
    obtain ⟨placed, hscan, htokens⟩ := ih (column + 1)
    refine ⟨⟨column, t⟩ :: placed, ?_, by rw [List.map_cons, htokens]⟩
    rw [scan, isBlank_of_spells hspells, ofSymbol?_eq_some_iff.2 hspells, hscan]
    rfl
  | @name f cs ts ends _ ih =>
    obtain ⟨c, rest, hletter, htext, hrun, hrest⟩ := span_name ends (f := f)
    obtain ⟨placed, hscan, htokens⟩ :=
      ih (column + 1 + (rest.takeWhile isIdentifierChar).length)
    refine ⟨⟨column, .feature f⟩ :: placed, ?_, by rw [List.map_cons, htokens]⟩
    rw [htext, scan, isBlank_of_isIdentifierChar hletter, ofSymbol?_of_isIdentifierChar hletter,
      dif_pos hletter, hrest, hrun]
    exact congrArg (Except.map _) hscan

/-- A text spells at most one sequence of tokens. -/
theorem Lexes.unique {cs : List Char} {ts us : List Token} (hts : Lexes cs ts) (hus : Lexes cs us) :
    ts = us := by
  obtain ⟨placed, hscan, rfl⟩ := scan_of_lexes hts 1
  obtain ⟨placed', hscan', rfl⟩ := scan_of_lexes hus 1
  rw [hscan] at hscan'
  cases hscan'
  rfl

/-! ## Cutting a text -/

/-- A text can be cut at each of its tokens but a name, which is one character of it. -/
theorem Lexes.exists_cut {cs : List Char} {t : Token} (ts : List Token) {us : List Token}
    (h : Lexes cs (ts ++ t :: us)) (symbol : ∀ f, t ≠ .feature f) :
    ∃ before c after, cs = before ++ c :: after ∧ Spells c t ∧ Lexes before ts ∧
      Lexes after us := by
  generalize hall : ts ++ t :: us = all at h
  induction h generalizing ts with
  | nil => exact absurd hall (List.append_ne_nil_of_right_ne_nil ts (List.cons_ne_nil t us))
  | @blank c cs all hblank _ ih =>
    obtain ⟨before, d, after, rfl, hspells, hbefore, hafter⟩ := ih ts hall
    exact ⟨c :: before, d, after, rfl, hspells, .blank hblank hbefore, hafter⟩
  | @symbol c s cs all hspells hrest ih =>
    cases ts with
    | nil =>
      obtain ⟨rfl, rfl⟩ := List.cons.inj hall
      exact ⟨[], c, cs, rfl, hspells, .nil, hrest⟩
    | cons first ts =>
      obtain ⟨rfl, others⟩ := List.cons.inj hall
      obtain ⟨before, d, after, rfl, hspells', hbefore, hafter⟩ := ih ts others
      exact ⟨c :: before, d, after, rfl, hspells', .symbol hspells hbefore, hafter⟩
  | @name f cs all ends _ ih =>
    cases ts with
    | nil => exact absurd (List.cons.inj hall).1 (symbol f)
    | cons first ts =>
      obtain ⟨rfl, others⟩ := List.cons.inj hall
      obtain ⟨before, d, after, rfl, hspells, hbefore, hafter⟩ := ih ts others
      refine ⟨f.name.toList ++ before, d, after, (List.append_assoc ..).symm, hspells,
        .name (fun c hc => ends c ?_) hbefore, hafter⟩
      rw [List.head?_append, Option.mem_def.mp hc]
      rfl

/-! ## The alphabet -/

theorem Lexes.inAlphabet {cs : List Char} {ts : List Token} (h : Lexes cs ts) :
    ∀ c ∈ cs, InAlphabet c := by
  induction h with
  | nil => simp
  | blank hblank _ ih => exact List.forall_mem_cons.2 ⟨.inl hblank, ih⟩
  | symbol hspells _ ih =>
    exact List.forall_mem_cons.2 ⟨.inr (.inl (mem_symbols_of_spells hspells)), ih⟩
  | @name f cs ts _ _ ih =>
    have letters : ∀ c ∈ f.name.toList, InAlphabet c :=
      fun _ hc => .inr (.inr (Feature.isIdentifierChar_of_mem_name hc))
    exact List.forall_mem_append.2 ⟨letters, ih⟩

/-- What the scanner can do nothing with is foreign. -/
theorem not_inAlphabet {c : Char} (hblank : ¬ isBlank c = true)
    (hsymbol : Token.ofSymbol? c = none) (hletter : ¬ isIdentifierChar c = true) :
    ¬ InAlphabet c := by
  rintro (h | h | h)
  · exact hblank h
  · simp only [List.mem_cons, List.not_mem_nil, or_false] at h
    rcases h with rfl | rfl | rfl | rfl | rfl | rfl <;> cases hsymbol
  · exact hletter h

/-- A text spells some sequence of tokens if and only if it has no foreign character. -/
theorem exists_lexes_iff {cs : List Char} : (∃ ts, Lexes cs ts) ↔ ∀ c ∈ cs, InAlphabet c := by
  constructor
  · rintro ⟨ts, h⟩
    exact h.inAlphabet
  · intro h
    fun_induction scan 1 cs with
    | case1 => exact ⟨[], .nil⟩
    | case2 column c rest hblank ih =>
      obtain ⟨ts, hts⟩ := ih (List.forall_mem_cons.1 h).2
      exact ⟨ts, .blank hblank hts⟩
    | case3 column c rest hblank token hsymbol ih =>
      obtain ⟨ts, hts⟩ := ih (List.forall_mem_cons.1 h).2
      exact ⟨token :: ts, .symbol (ofSymbol?_eq_some_iff.1 hsymbol) hts⟩
    | case4 column c rest hblank hsymbol hletter column' =>
      rename_i ih
      obtain ⟨ts, hts⟩ := ih fun d hd => h d (.tail _ (List.dropWhile_subset _ hd))
      rw [← toList_ofRun_append c rest hletter]
      exact ⟨_, .name (head?_dropWhile_identifier rest) hts⟩
    | case5 column c rest hblank hsymbol hletter =>
      exact absurd (h c (.head _)) (not_inAlphabet hblank hsymbol hletter)

end ProductLine
