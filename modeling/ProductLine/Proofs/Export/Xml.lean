/- # XML that can be read back — a text stands for one element

An element is written without anything to tell its length, so what has to be
shown is that its end is seen: if an element and what follows it are the same
characters as another element and what follows that one, the elements are the
same and so is the rest (`Xml.render_unique`).  Names end where a character
comes that is no letter, values and texts end at the first `"` and the first
`<`, since the escapes contain neither, and the elements inside of another one
end where a line is indented less.

An element without text and one without children are written alike.  `normal`
takes the first for the second.
-/
import Mathlib.Data.List.Basic
import ProductLine.Export.Xml

namespace ProductLine.Xml

/-! ## Escapes -/

/-- The spellings of characters can be told apart from the front, and from the mark that ends a
text. -/
structure Spelling (spell : Char → List Char) (mark : Char) : Prop where
  nonempty : ∀ c, spell c ≠ []
  clean : ∀ c, mark ∉ spell c
  unique : ∀ {c d : Char} {rest rest' : List Char},
    spell c ++ rest = spell d ++ rest' → c = d ∧ rest = rest'

theorem spelling_text : Spelling escapeInText '<' where
  nonempty c := by
    unfold escapeInText
    split <;> simp
  clean c := by
    unfold escapeInText
    split <;> simp_all [eq_comm]
  unique := by
    intro c d rest rest' h
    unfold escapeInText at h
    split at h <;> split at h <;> grind

theorem spelling_attribute : Spelling escapeInAttribute '"' where
  nonempty c := by
    unfold escapeInAttribute
    split
    · simp
    · exact spelling_text.nonempty c
  clean c := by
    unfold escapeInAttribute escapeInText
    split
    · simp
    · split <;> simp_all [eq_comm]
  unique := by
    intro c d rest rest' h
    unfold escapeInAttribute at h
    split at h <;> split at h
    · exact ⟨rfl, List.append_cancel_left h⟩
    · unfold escapeInText at h
      grind
    · unfold escapeInText at h
      grind
    · exact spelling_text.unique h

/-- A text ends at the first mark. -/
theorem Spelling.flatMap_unique {spell : Char → List Char} {mark : Char} (h : Spelling spell mark)
    {text text' rest rest' : List Char}
    (same : text.flatMap spell ++ mark :: rest = text'.flatMap spell ++ mark :: rest') :
    text = text' ∧ rest = rest' := by
  have begun (c : Char) (others rest rest' : List Char) :
      mark :: rest ≠ (c :: others).flatMap spell ++ rest' := by
    obtain ⟨d, ds, hspell⟩ := List.exists_cons_of_ne_nil (h.nonempty c)
    have other := h.clean c
    rw [List.flatMap_cons, hspell]
    rw [hspell] at other
    intro heads
    obtain ⟨rfl, -⟩ := List.cons.inj heads
    exact other List.mem_cons_self
  induction text generalizing text' with
  | nil =>
    cases text' with
    | nil => exact ⟨rfl, (List.cons.inj same).2⟩
    | cons c text' => exact absurd same (begun c text' rest _)
  | cons c text ih =>
    cases text' with
    | nil => exact absurd same.symm (begun c text rest' _)
    | cons d text' =>
      rw [List.flatMap_cons, List.flatMap_cons, List.append_assoc, List.append_assoc] at same
      obtain ⟨rfl, others⟩ := h.unique same
      obtain ⟨rfl, rests⟩ := ih others
      exact ⟨rfl, rests⟩

/-! ## Words -/

/-- A word ends where a character comes that is none of its kind. -/
theorem word_unique {p : Char → Bool} {word word' rest rest' : List Char}
    (letters : ∀ c ∈ word, p c = true) (letters' : ∀ c ∈ word', p c = true)
    (ends : ∀ c ∈ rest.head?, p c = false) (ends' : ∀ c ∈ rest'.head?, p c = false)
    (same : word ++ rest = word' ++ rest') : word = word' ∧ rest = rest' := by
  have first {word rest : List Char} (letters : ∀ c ∈ word, p c = true)
      (ends : ∀ c ∈ rest.head?, p c = false) : (word ++ rest).takeWhile p = word := by
    rw [List.takeWhile_append_of_pos letters]
    cases rest with
    | nil => rw [List.takeWhile_nil, List.append_nil]
    | cons c rest =>
      rw [List.takeWhile_cons_of_neg (by simp [ends c rfl]), List.append_nil]
  have words := congrArg (List.takeWhile p) same
  rw [first letters ends, first letters' ends'] at words
  subst words
  exact ⟨rfl, List.append_cancel_left same⟩

/-! ## Elements -/

/-- A name that is made of letters. -/
def PlainName (name : String) : Prop :=
  name ≠ "" ∧ ∀ c ∈ name.toList, c.isAlpha = true

/-- All names in the element are made of letters. -/
inductive Plain : Xml → Prop where
  | leaf {name text : String} : PlainName name → Plain (.leaf name text)
  | node {name : String} {attributes : List (String × String)} {children : List Xml} :
      PlainName name → (∀ a ∈ attributes, PlainName a.1) → (∀ x ∈ children, Plain x) →
      Plain (.node name attributes children)

mutual

/-- The element with nodes for those elements in it that are empty. -/
def normal : Xml → Xml
  | leaf name text => if text = "" then node name [] [] else leaf name text
  | node name attributes children => node name attributes (normalAll children)

/-- The elements with nodes for those that are empty. -/
def normalAll : List Xml → List Xml
  | [] => []
  | x :: xs => normal x :: normalAll xs

end

/-- The name of an element. -/
def tag : Xml → String
  | leaf name _ => name
  | node name _ _ => name

/-- The attributes of an element. -/
def attributes : Xml → List (String × String)
  | leaf _ _ => []
  | node _ attributes _ => attributes

def spaces (level : Nat) : List Char :=
  List.replicate (2 * level) ' '

/-- Attributes, and what follows them. -/
def attributesThen (attributes : List (String × String)) (rest : List Char) : List Char :=
  attributes.foldr (fun a rest => ' ' :: (a.1.toList ++
    '=' :: '"' :: (a.2.toList.flatMap escapeInAttribute ++ '"' :: rest))) rest

/-- The end of an element, and what follows it. -/
def closingThen (name : String) (rest : List Char) : List Char :=
  '<' :: '/' :: (name.toList ++ '>' :: rest)

/-- What comes after the attributes of an element. -/
def contentThen (level : Nat) (rest : List Char) : Xml → List Char
  | leaf name text =>
    if text = "" then '/' :: '>' :: rest
    else '>' :: (text.toList.flatMap escapeInText ++ closingThen name rest)
  | node _ _ [] => '/' :: '>' :: rest
  | node name _ (child :: children) =>
    '>' :: '\n' :: ((renderAll (level + 1) (child :: children)).toList ++
      (spaces level ++ closingThen name rest))

theorem attributesText_append (attributes : List (String × String)) (rest : List Char) :
    (attributesText attributes).toList ++ rest = attributesThen attributes rest := by
  induction attributes with
  | nil => rfl
  | cons a attributes ih =>
    rw [attributesThen, List.foldr_cons, ← attributesThen, ← ih]
    simp [attributesText, escape]

/-- An element is written as its name, its attributes, and its content. -/
theorem render_append (level : Nat) (x : Xml) (rest : List Char) :
    (render level x).toList ++ rest = spaces level ++
      '<' :: (x.tag.toList ++ attributesThen x.attributes (contentThen level rest x)) := by
  cases x with
  | leaf name text =>
    rw [render, contentThen]
    by_cases empty : text = ""
    case pos => simp [empty, indentation, spaces, tag, attributes, attributesThen]
    case neg =>
      simp [empty, indentation, spaces, tag, attributes, attributesThen, escape, closingThen]
  | node name attributes children =>
    cases children with
    | nil =>
      simp [render, indentation, spaces, tag, Xml.attributes, contentThen, ← attributesText_append]
    | cons child children =>
      simp [render, renderAll, indentation, spaces, tag, Xml.attributes, contentThen, closingThen,
        ← attributesText_append]

theorem renderAll_append (level : Nat) (x : Xml) (xs : List Xml) (rest : List Char) :
    (renderAll level (x :: xs)).toList ++ rest =
      (render level x).toList ++ '\n' :: ((renderAll level xs).toList ++ rest) := by
  simp [renderAll]

/-! ## From the text back to the element -/

/-- What can come after the name and the attributes of an element. -/
theorem head?_contentThen (level : Nat) (rest : List Char) (x : Xml) :
    ∀ c ∈ (contentThen level rest x).head?, c = '/' ∨ c = '>' := by
  intro c hc
  unfold contentThen at hc
  split at hc
  · split at hc
    · exact .inl (Option.some.inj hc).symm
    · exact .inr (Option.some.inj hc).symm
  · exact .inl (Option.some.inj hc).symm
  · exact .inr (Option.some.inj hc).symm

section Parts

variable {as as' : List (String × String)} {rest rest' : List Char}

theorem head?_attributesThen (h : ∀ c ∈ rest.head?, c = '/' ∨ c = '>') :
    ∀ c ∈ (attributesThen as rest).head?, c.isAlpha = false := by
  intro c hc
  cases as with
  | nil => rcases h c hc with rfl | rfl <;> decide
  | cons a as =>
    obtain rfl := Option.some.inj hc
    decide

theorem name_unique {name name' : String} (plain : PlainName name) (plain' : PlainName name')
    (ends : ∀ c ∈ rest.head?, c.isAlpha = false) (ends' : ∀ c ∈ rest'.head?, c.isAlpha = false)
    (same : name.toList ++ rest = name'.toList ++ rest') : name = name' ∧ rest = rest' := by
  obtain ⟨names, rests⟩ := word_unique plain.2 plain'.2 ends ends' same
  exact ⟨String.toList_inj.mp names, rests⟩

theorem attributes_unique (plain : ∀ a ∈ as, PlainName a.1) (plain' : ∀ a ∈ as', PlainName a.1)
    (ends : ∀ c ∈ rest.head?, c = '/' ∨ c = '>') (ends' : ∀ c ∈ rest'.head?, c = '/' ∨ c = '>')
    (same : attributesThen as rest = attributesThen as' rest') : as = as' ∧ rest = rest' := by
  have begun (a : String × String) (as : List (String × String)) (rest rest' : List Char)
      (ends : ∀ c ∈ rest.head?, c = '/' ∨ c = '>') :
      rest ≠ attributesThen (a :: as) rest' := by
    rintro rfl
    rcases ends ' ' rfl with h | h <;> exact absurd h (by decide)
  induction as generalizing as' with
  | nil =>
    cases as' with
    | nil => exact ⟨rfl, same⟩
    | cons a as' => exact absurd same (begun a as' rest rest' ends)
  | cons a as ih =>
    cases as' with
    | nil => exact absurd same.symm (begun a as rest' rest ends')
    | cons a' as' =>
      obtain ⟨name, value⟩ := a
      obtain ⟨name', value'⟩ := a'
      obtain ⟨ha, has⟩ := List.forall_mem_cons.mp plain
      obtain ⟨ha', has'⟩ := List.forall_mem_cons.mp plain'
      have sign (rest : List Char) : ∀ c ∈ ('=' :: rest).head?, c.isAlpha = false := by
        rintro c ⟨⟩
        decide
      obtain ⟨rfl, values⟩ := name_unique ha ha' (sign _) (sign _) (List.cons.inj same).2
      obtain ⟨hvalue, others⟩ := spelling_attribute.flatMap_unique
        (List.cons.inj (List.cons.inj values).2).2
      obtain rfl := String.toList_inj.mp hvalue
      obtain ⟨rfl, rests⟩ := ih has has' others
      exact ⟨rfl, rests⟩

end Parts

/-- A text and an element begin differently. -/
theorem text_ne_elements {text rest rest' : List Char} {level : Nat} {name : String}
    (plain : PlainName name) :
    text.flatMap escapeInText ++ '<' :: '/' :: rest ≠
      '\n' :: (spaces level ++ '<' :: (name.toList ++ rest')) := by
  intro same
  have clean : ∀ c ∈ text.flatMap escapeInText, (c != '<') = true := by
    intro c hc
    obtain ⟨d, -, hd⟩ := List.mem_flatMap.mp hc
    refine bne_iff_ne.mpr ?_
    rintro rfl
    exact spelling_text.clean d hd
  have blank : ∀ c ∈ '\n' :: spaces level, (c != '<') = true := by
    refine List.forall_mem_cons.mpr ⟨rfl, ?_⟩
    intro c hc
    rw [(List.mem_replicate.mp hc).2]
    rfl
  have mark (rest : List Char) : ∀ c ∈ ('<' :: rest).head?, (c != '<') = false := by
    rintro c ⟨⟩
    rfl
  obtain ⟨-, rests⟩ := word_unique clean blank (mark _) (mark _) same
  obtain ⟨nonempty, letters⟩ := plain
  have first : ∀ c ∈ name.toList.head?, c.isAlpha = true :=
    fun c hc => letters c (List.mem_of_mem_head? hc)
  have letter : name.toList ≠ [] := String.toList_eq_nil_iff.not.mpr nonempty
  obtain ⟨c, others, hname⟩ := List.exists_cons_of_ne_nil letter
  rw [hname] at rests first
  obtain ⟨-, slash⟩ := List.cons.inj rests
  obtain ⟨rfl, -⟩ := List.cons.inj slash
  exact absurd (first '/' rfl) (by decide)

theorem Plain.tag {x : Xml} (h : x.Plain) : PlainName x.tag := by
  cases h with
  | leaf name => exact name
  | node name => exact name

theorem Plain.attributes {x : Xml} (h : x.Plain) : ∀ a ∈ x.attributes, PlainName a.1 := by
  cases h with
  | leaf => exact nofun
  | node _ attributes => exact attributes

section Elements

variable {x y : Xml} {level : Nat} {rest rest' : List Char}

/-- The name, the attributes and the content can be told from the characters of an element. -/
theorem parts_unique (plain : x.Plain) (plain' : y.Plain)
    (same : (render level x).toList ++ rest = (render level y).toList ++ rest') :
    x.tag = y.tag ∧ x.attributes = y.attributes ∧
      contentThen level rest x = contentThen level rest' y := by
  rw [render_append, render_append] at same
  have ends := head?_contentThen level rest x
  have ends' := head?_contentThen level rest' y
  obtain ⟨tags, afterTag⟩ := name_unique plain.tag plain'.tag (head?_attributesThen ends)
    (head?_attributesThen ends') (List.cons.inj (List.append_cancel_left same)).2
  obtain ⟨attributes, contents⟩ :=
    attributes_unique plain.attributes plain'.attributes ends ends' afterTag
  exact ⟨tags, attributes, contents⟩

/-- There is nothing in the element. -/
def Hollow : Xml → Prop
  | leaf _ text => text = ""
  | node _ _ children => children = []

theorem normal_of_hollow (h : x.Hollow) : x.normal = node x.tag x.attributes [] := by
  cases x with
  | leaf name text =>
    obtain rfl : text = "" := h
    rfl
  | node name as children =>
    obtain rfl : children = [] := h
    rfl

theorem contentThen_of_hollow (h : x.Hollow) (level : Nat) (rest : List Char) :
    contentThen level rest x = '/' :: '>' :: rest := by
  cases x with
  | leaf name text =>
    obtain rfl : text = "" := h
    rfl
  | node name as children =>
    obtain rfl : children = [] := h
    rfl

theorem contentThen_of_not_hollow (h : ¬ x.Hollow) (level : Nat) (rest : List Char) :
    ∃ inner, contentThen level rest x = '>' :: inner := by
  cases x with
  | leaf name text =>
    have some : text ≠ "" := h
    exact ⟨_, by rw [contentThen, if_neg some]⟩
  | node name as children =>
    cases children with
    | nil => exact absurd rfl h
    | cons child children => exact ⟨_, rfl⟩

/-- Elements with the same characters are both hollow or neither of them is. -/
theorem hollow_iff (same : contentThen level rest x = contentThen level rest' y) :
    x.Hollow ↔ y.Hollow := by
  have apart {x y : Xml} {rest rest' : List Char} (hx : x.Hollow) (hy : ¬ y.Hollow) :
      contentThen level rest x ≠ contentThen level rest' y := by
    obtain ⟨inner, hinner⟩ := contentThen_of_not_hollow hy level rest'
    rw [contentThen_of_hollow hx, hinner]
    intro heads
    exact absurd (List.cons.inj heads).1 (by decide)
  constructor
  · intro hx
    by_contra hy
    exact apart hx hy same
  · intro hy
    by_contra hx
    exact apart hy hx same.symm

theorem unique_of_hollow (tags : x.tag = y.tag) (attributes : x.attributes = y.attributes)
    (contents : contentThen level rest x = contentThen level rest' y) (hx : x.Hollow) :
    x.normal = y.normal ∧ rest = rest' := by
  have hy := (hollow_iff contents).mp hx
  rw [contentThen_of_hollow hx, contentThen_of_hollow hy] at contents
  rw [normal_of_hollow hx, normal_of_hollow hy, tags, attributes]
  exact ⟨rfl, (List.cons.inj (List.cons.inj contents).2).2⟩

/-- An element with a text and one with elements are not written alike. -/
theorem leaf_ne_node {name name' text : String} {as : List (String × String)} {child : Xml}
    {children : List Xml} (some : text ≠ "") (plain : child.Plain) :
    contentThen level rest (leaf name text) ≠
      contentThen level rest' (node name' as (child :: children)) := by
  rw [contentThen, if_neg some, contentThen, renderAll_append, render_append]
  intro same
  exact text_ne_elements plain.tag (List.cons.inj same).2

theorem leaf_unique {name text : String} (plain' : y.Plain)
    (tags : (leaf name text).tag = y.tag)
    (contents : contentThen level rest (leaf name text) = contentThen level rest' y)
    (some : text ≠ "") : (leaf name text).normal = y.normal ∧ rest = rest' := by
  have hy : ¬ y.Hollow := (hollow_iff contents).not.mp some
  cases y with
  | leaf name' text' =>
    have some' : text' ≠ "" := hy
    rw [contentThen, if_neg some, contentThen, if_neg some'] at contents
    obtain rfl : name = name' := tags
    obtain ⟨texts, rests⟩ := spelling_text.flatMap_unique (List.cons.inj contents).2
    obtain rfl := String.toList_inj.mp texts
    have closing := List.append_cancel_left (List.cons.inj rests).2
    exact ⟨rfl, (List.cons.inj closing).2⟩
  | node name' as children =>
    cases plain' with
    | node _ _ plains =>
      cases children with
      | nil => exact absurd rfl hy
      | cons child children =>
        exact absurd contents (leaf_ne_node some (plains child List.mem_cons_self))

end Elements

/-- Where the elements in another one end, the line is indented less. -/
theorem renderAll_ne_nil {x : Xml} {xs : List Xml} {level : Nat} {rest rest' : List Char} :
    (renderAll (level + 1) (x :: xs)).toList ++ rest ≠ spaces level ++ '<' :: rest' := by
  rw [renderAll_append, render_append]
  have deeper : spaces (level + 1) = spaces level ++ [' ', ' '] := by
    rw [spaces, spaces, Nat.mul_add, List.replicate_add]
    rfl
  rw [deeper, List.append_assoc]
  intro same
  exact absurd (List.cons.inj (List.append_cancel_left same)).1 (by decide)

mutual

/-- An element and what follows it can be told from their characters. -/
theorem render_unique : ∀ (x y : Xml) (level : Nat) (rest rest' : List Char),
    x.Plain → y.Plain → (render level x).toList ++ rest = (render level y).toList ++ rest' →
    x.normal = y.normal ∧ rest = rest'
  | .leaf name text => by
      intro y level rest rest' plain plain' same
      obtain ⟨tags, attributes, contents⟩ := parts_unique plain plain' same
      by_cases empty : text = ""
      case pos => exact unique_of_hollow tags attributes contents empty
      case neg => exact leaf_unique plain' tags contents empty
  | .node name as [] => by
      intro y level rest rest' plain plain' same
      obtain ⟨tags, attributes, contents⟩ := parts_unique plain plain' same
      exact unique_of_hollow tags attributes contents rfl
  | .node name as (child :: children) => by
      intro y level rest rest' plain plain' same
      obtain ⟨tags, attributes, contents⟩ := parts_unique plain plain' same
      have hy : ¬ y.Hollow := (hollow_iff contents).not.mp (List.cons_ne_nil child children)
      cases y with
      | leaf name' text' =>
        obtain ⟨normals, rests⟩ := leaf_unique plain tags.symm contents.symm hy
        exact ⟨normals.symm, rests.symm⟩
      | node name' as' children' =>
        obtain rfl : name = name' := tags
        obtain rfl : as = as' := attributes
        cases plain with
        | node _ _ plains =>
          cases plain' with
          | node _ _ plains' =>
            cases children' with
            | nil => exact absurd rfl hy
            | cons child' children' =>
              have lines := (List.cons.inj (List.cons.inj contents).2).2
              obtain ⟨normals, rests⟩ :=
                renderAll_unique (child :: children) _ _ _ _ plains plains' lines
              rw [normal, normal, normals]
              exact ⟨rfl, (List.cons.inj (List.append_cancel_left rests)).2⟩

theorem renderAll_unique : ∀ (xs ys : List Xml) (level : Nat) (rest rest' : List Char),
    (∀ x ∈ xs, x.Plain) → (∀ y ∈ ys, y.Plain) →
    (renderAll (level + 1) xs).toList ++ (spaces level ++ '<' :: '/' :: rest) =
      (renderAll (level + 1) ys).toList ++ (spaces level ++ '<' :: '/' :: rest') →
    normalAll xs = normalAll ys ∧ rest = rest'
  | [] => by
      intro ys level rest rest' plain plain' same
      cases ys with
      | nil =>
        have closing := List.append_cancel_left (List.append_cancel_left same)
        exact ⟨rfl, (List.cons.inj (List.cons.inj closing).2).2⟩
      | cons y ys => exact absurd same.symm renderAll_ne_nil
  | x :: xs => by
      intro ys level rest rest' plain plain' same
      cases ys with
      | nil => exact absurd same renderAll_ne_nil
      | cons y ys =>
        obtain ⟨hx, hxs⟩ := List.forall_mem_cons.mp plain
        obtain ⟨hy, hys⟩ := List.forall_mem_cons.mp plain'
        rw [renderAll_append, renderAll_append] at same
        obtain ⟨first, lines⟩ := render_unique x _ _ _ _ hx hy same
        obtain ⟨others, rests⟩ := renderAll_unique xs _ _ _ _ hxs hys (List.cons.inj lines).2
        rw [normalAll, normalAll, first, others]
        exact ⟨rfl, rests⟩

end

end ProductLine.Xml
