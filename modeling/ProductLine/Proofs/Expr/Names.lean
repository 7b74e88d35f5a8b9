/- # Names — the features of an expression, in the order of its text

A name stands in a text where its characters do, with no identifier character
on either side (`NameAt`).  This is said of the text alone; the tokens that the
text spells name the same features, and in the order of the columns
(`Lexes.mem_features_iff`, `Lexes.firstNamed`).  A derivation puts them at the
leaves of its tree in that order (`Derives.leaves_eq`), and the walk over the
leaves leaves out what it has met before, which moves no first place
(`firstOf_vars_iff`).
-/
import ProductLine.Proofs.Expr.Reading
import ProductLine.Proofs.Expr.Vars
import ProductLine.Proofs.Rules

namespace ProductLine

/-- The name of the feature stands in the column of the text, and is all of its run of identifier
characters. -/
def NameAt (cs : List Char) (column : Nat) (f : Feature) : Prop :=
  ∃ left right, cs = left ++ (f.name.toList ++ right) ∧ column = left.length + 1 ∧
    (∀ c ∈ left.getLast?, isIdentifierChar c = false) ∧
    ∀ c ∈ right.head?, isIdentifierChar c = false

/-- Of the features of which it is true, this one is named first in the text. -/
def FirstNamed (p : Feature → Prop) (cs : List Char) (f : Feature) : Prop :=
  ∃ column, NameAt cs column f ∧ p f ∧ ∀ column' g, NameAt cs column' g → p g → column ≤ column'

/-- The feature that a token names. -/
def Token.feature? : Token → Option Feature
  | feature f => some f
  | _ => none

/-- The features that the tokens name, in their order. -/
def Token.features (ts : List Token) : List Feature :=
  ts.filterMap Token.feature?

theorem Token.features_append (ts us : List Token) :
    features (ts ++ us) = features ts ++ features us :=
  List.filterMap_append

/-! ## Where names stand -/

section Columns

variable {c : Char} {cs : List Char} {column : Nat} {f g : Feature}

theorem Feature.exists_name_eq_cons (f : Feature) :
    ∃ c rest, f.name.toList = c :: rest ∧ isIdentifierChar c = true := by
  obtain ⟨c, rest, same⟩ := List.exists_cons_of_ne_nil f.toList_name_ne_nil
  exact ⟨c, rest, same, Feature.isIdentifierChar_of_mem_name (same ▸ List.mem_cons_self)⟩

/-- Names stand where they stood before another character came in front. -/
theorem nameAt_cons_iff (other : isIdentifierChar c = false) :
    NameAt (c :: cs) column f ↔ ∃ k, column = k + 1 ∧ NameAt cs k f := by
  constructor
  · rintro ⟨left, right, cut, rfl, before, after⟩
    cases left with
    | nil =>
      obtain ⟨d, rest, hname, letter⟩ := f.exists_name_eq_cons
      rw [hname] at cut
      obtain ⟨rfl, -⟩ := List.cons.inj cut
      rw [letter] at other
      cases other
    | cons d left =>
      obtain ⟨rfl, rest⟩ := List.cons.inj cut
      refine ⟨left.length + 1, rfl, left, right, rest, rfl, fun x hx => before x ?_, after⟩
      rw [List.getLast?_cons, Option.mem_def.mp hx]
      rfl
  · rintro ⟨k, rfl, left, right, rfl, rfl, before, after⟩
    refine ⟨c :: left, right, rfl, rfl, ?_, after⟩
    rintro x hx
    cases left with
    | nil =>
      rw [List.getLast?_singleton, Option.mem_some_iff] at hx
      exact hx ▸ other
    | cons d left => exact before x (by rwa [List.getLast?_cons_cons] at hx)

/-- A text that starts with a name starts with no other one. -/
theorem eq_of_name_append {ds : List Char} (same : f.name.toList ++ cs = g.name.toList ++ ds)
    (ends : ∀ c ∈ cs.head?, isIdentifierChar c = false)
    (ends' : ∀ c ∈ ds.head?, isIdentifierChar c = false) : f = g := by
  obtain ⟨c, rest, letter, htext, run, -⟩ := span_name (f := f) ends
  obtain ⟨d, rest', letter', htext', run', -⟩ := span_name (f := g) ends'
  obtain ⟨rfl, rfl⟩ := List.cons.inj (htext.symm.trans (same.trans htext'))
  exact run.symm.trans run'

/-- The name in front stands in the first column, and the others where they stood before. -/
theorem nameAt_name_append_iff (ends : ∀ c ∈ cs.head?, isIdentifierChar c = false) :
    NameAt (f.name.toList ++ cs) column g ↔
      (column = 1 ∧ g = f) ∨ ∃ k, column = f.name.toList.length + k ∧ NameAt cs k g := by
  constructor
  · rintro ⟨left, right, cut, rfl, before, after⟩
    rcases List.append_eq_append_iff.mp cut with ⟨between, rfl, rest⟩ | ⟨between, hname, rest⟩
    · refine .inr ⟨between.length + 1, ?_, between, right, rest, rfl, fun c hc => ?_, after⟩
      · rw [List.length_append, Nat.add_assoc]
      · apply before c
        rw [List.getLast?_append, Option.mem_def.mp hc]
        rfl
    · cases hlast : left.getLast? with
      | none =>
        rw [List.getLast?_eq_none_iff] at hlast
        subst hlast
        exact .inl ⟨rfl, (eq_of_name_append cut ends after).symm⟩
      | some c =>
        -- The cut would fall into the name in front.
        have among : c ∈ f.name.toList := by
          rw [hname]
          exact List.mem_append_left between (List.mem_of_getLast? hlast)
        have letter := before c hlast
        rw [Feature.isIdentifierChar_of_mem_name among] at letter
        cases letter
  · rintro (⟨rfl, rfl⟩ | ⟨k, rfl, left, right, rfl, rfl, before, after⟩)
    · exact ⟨[], cs, rfl, rfl, nofun, ends⟩
    · refine ⟨f.name.toList ++ left, right, (List.append_assoc ..).symm, ?_, fun c hc => ?_, after⟩
      · rw [List.length_append, Nat.add_assoc]
      · cases hlast : left.getLast? with
        | none =>
          rw [List.getLast?_eq_none_iff] at hlast
          subst hlast
          obtain ⟨d, rest, hname, letter⟩ := g.exists_name_eq_cons
          have other := ends d (by rw [hname]; rfl)
          rw [letter] at other
          cases other
        | some d =>
          rw [List.getLast?_append, hlast] at hc
          exact before c (hlast.trans hc)

end Columns

/-! ## The names of a text and its tokens -/

section Lexes

variable {cs : List Char} {ts : List Token} {f : Feature} {p : Feature → Prop}

theorem isIdentifierChar_of_isBlank {c : Char} (h : Text.isBlank c = true) :
    isIdentifierChar c = false := by
  rw [← Bool.not_eq_true]
  intro letter
  rw [isBlank_of_isIdentifierChar letter] at h
  cases h

theorem isIdentifierChar_of_spells {c : Char} {t : Token} (h : Spells c t) :
    isIdentifierChar c = false := by
  cases h <;> decide

theorem features_of_spells {c : Char} {t : Token} (h : Spells c t) (ts : List Token) :
    Token.features (t :: ts) = Token.features ts := by
  cases h <;> rfl

/-- What stands in a text as a name is named by one of its tokens. -/
theorem Lexes.mem_features (h : Lexes cs ts) {column : Nat} (hname : NameAt cs column f) :
    f ∈ Token.features ts := by
  induction h generalizing column with
  | nil =>
    obtain ⟨left, right, cut, -⟩ := hname
    obtain ⟨c, rest, spelled, -⟩ := f.exists_name_eq_cons
    simp [spelled] at cut
  | blank hblank _ ih =>
    obtain ⟨k, -, hname⟩ := (nameAt_cons_iff (isIdentifierChar_of_isBlank hblank)).mp hname
    exact ih hname
  | symbol spells _ ih =>
    obtain ⟨k, -, hname⟩ := (nameAt_cons_iff (isIdentifierChar_of_spells spells)).mp hname
    rw [features_of_spells spells]
    exact ih hname
  | name ends _ ih =>
    rcases (nameAt_name_append_iff ends).mp hname with ⟨-, rfl⟩ | ⟨k, -, hname⟩
    · exact List.mem_cons_self
    · exact List.mem_cons_of_mem _ (ih hname)

theorem FirstNamed.cons {c : Char} (other : isIdentifierChar c = false) (h : FirstNamed p cs f) :
    FirstNamed p (c :: cs) f := by
  obtain ⟨column, hname, hf, first⟩ := h
  refine ⟨column + 1, (nameAt_cons_iff other).mpr ⟨column, rfl, hname⟩, hf, fun column' g hg => ?_⟩
  obtain ⟨k, rfl, hg'⟩ := (nameAt_cons_iff other).mp hg
  exact fun holds => Nat.succ_le_succ (first k g hg' holds)

/-- The first place among the tokens is the first one in the text. -/
theorem Lexes.firstNamed (h : Lexes cs ts) (first : FirstOf p (Token.features ts) f) :
    FirstNamed p cs f := by
  induction h with
  | nil => exact absurd first not_firstOf_nil
  | blank hblank _ ih => exact (ih first).cons (isIdentifierChar_of_isBlank hblank)
  | symbol spells _ ih =>
    rw [features_of_spells spells] at first
    exact (ih first).cons (isIdentifierChar_of_spells spells)
  | @name g cs ts ends _ ih =>
    rcases firstOf_cons_iff.mp first with ⟨hg, rfl⟩ | ⟨hg, first⟩
    · refine ⟨1, (nameAt_name_append_iff ends).mpr (.inl ⟨rfl, rfl⟩), hg, ?_⟩
      rintro column' g ⟨left, right, -, rfl, -⟩ -
      exact Nat.le_add_left 1 left.length
    · obtain ⟨column, hname, hf, least⟩ := ih first
      refine ⟨g.name.toList.length + column,
        (nameAt_name_append_iff ends).mpr (.inr ⟨column, rfl, hname⟩), hf, fun column' h hh => ?_⟩
      rcases (nameAt_name_append_iff ends).mp hh with ⟨-, rfl⟩ | ⟨k, rfl, hh'⟩
      · exact fun holds => absurd holds hg
      · exact fun holds => Nat.add_le_add_left (least k h hh' holds) _

end Lexes

namespace Expr

/-- The features at the leaves of the tree to the left of a tail. -/
def Phrase.leaves : Phrase → List Feature
  | tail _ left => left.leaves
  | _ => []

theorem Junction.leaves_operand (op : Junction) : op.operand.leaves = [] := by
  cases op <;> rfl

theorem Junction.leaves_apply (op : Junction) (left right : Expr) :
    (op.apply left right).leaves = left.leaves ++ right.leaves := by
  cases op <;> rfl

theorem Junction.features_token (op : Junction) (ts : List Token) :
    Token.features (op.token :: ts) = Token.features ts := by
  cases op <;> rfl

/-- A derivation puts the features that its tokens name at the leaves, in their order. -/
theorem Derives.leaves_eq {k : Phrase} {n : Nat} {ts : List Token} {e : Expr}
    (h : Derives k n ts e) : e.leaves = k.leaves ++ Token.features ts := by
  induction h with
  | feature f => rfl
  | not _ ih => exact ih
  | @enclosed n ts e _ ih =>
    have inside : Token.features (.opening :: (ts ++ [.closing])) = Token.features ts := by
      rw [Token.features, List.filterMap_cons_none rfl, List.filterMap_append]
      exact List.append_nil _
    rw [inside]
    exact ih
  | @chain op m n ts us left e _ _ ih ih' =>
    rw [op.leaves_operand, List.nil_append] at ih
    rw [ih', Phrase.leaves, ih, Token.features_append]
    rfl
  | stop op left => exact (List.append_nil _).symm
  | @more op m n ts us left right e _ _ ih ih' =>
    rw [op.leaves_operand, List.nil_append] at ih
    rw [ih', Phrase.leaves, op.leaves_apply, ih, op.features_token, Token.features_append,
      List.append_assoc]
    rfl

variable {p : Feature → Prop} {f g : Feature} {found fs : List Feature}

theorem firstOf_note_iff : FirstOf p (note found f) g ↔ FirstOf p (found ++ [f]) g := by
  unfold note
  split
  case isTrue known =>
    rw [firstOf_append_iff, iff_self_or]
    rintro ⟨none, h⟩
    obtain ⟨holds, -⟩ | ⟨-, h⟩ := firstOf_cons_iff.mp h
    · exact absurd holds (none f known)
    · exact absurd h not_firstOf_nil
  case isFalse => rfl

theorem firstOf_foldl_note_iff : FirstOf p (fs.foldl note found) g ↔ FirstOf p (found ++ fs) g := by
  induction fs generalizing found with
  | nil => rw [List.append_nil, List.foldl_nil]
  | cons f fs ih =>
    have longer : FirstOf p (note found f ++ fs) g ↔ FirstOf p (found ++ [f] ++ fs) g := by
      rw [firstOf_append_iff, firstOf_append_iff, firstOf_note_iff]
      simp only [mem_note_iff, List.mem_append, List.mem_singleton]
    rw [List.foldl_cons, ih, longer, List.append_assoc, List.singleton_append]

/-- Leaving out what has been met before moves no first place. -/
theorem firstOf_vars_iff {e : Expr} : FirstOf p e.vars f ↔ FirstOf p e.leaves f := by
  rw [vars_eq_foldl, firstOf_foldl_note_iff, List.nil_append]

/-- The variables of what is read from a text are those that it names, and the first one of them
is the one that it names first. -/
theorem names_of_parse {text : String} {e : Expr} (h : parse text = .ok e) :
    (∀ column f, NameAt text.toList column f → f ∈ e.vars) ∧
      ∀ (p : Feature → Prop) f, FirstOf p e.vars f → FirstNamed p text.toList f := by
  obtain ⟨ts, n, hlexes, hderives, -, -⟩ := ofChars_eq_ok_iff.mp h
  have leaves : e.leaves = Token.features ts := hderives.leaves_eq
  constructor
  · intro column f hname
    rw [mem_vars_iff, leaves]
    exact hlexes.mem_features hname
  · intro p f first
    rw [firstOf_vars_iff, leaves] at first
    exact hlexes.firstNamed first

end Expr

end ProductLine
