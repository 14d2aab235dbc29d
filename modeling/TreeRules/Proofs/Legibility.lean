import Mathlib.Data.Set.Function
import TreeRules.Node.SExpression

/-!
# Expressions are legible

No expression is the beginning of another one, whatever follows it, so a tree can be read off its
expression. Each part is legible on its own: the name of a kind, since no name is the beginning of
another; an escaped character, since its first two characters tell how it was escaped; a quoted text
and a list of children, since none of their items starts with what stands behind them.
-/

namespace TreeRules

variable {α : Type} {write : α → List Char}

/-- Whatever follows, what is written for the item is not written for any other one. -/
def Legible (write : α → List Char) (item : α) : Prop :=
  ∀ other rest rest', write item ++ rest = write other ++ rest' → item = other ∧ rest = rest'

/-- Items are read one after the other up to a character with which no item starts. -/
theorem Legible.flatMap {stop : Char}
    (hstop : ∀ item, ∃ first others, write item = first :: others ∧ first ≠ stop) {items : List α}
    (h : ∀ item ∈ items, Legible write item) :
    Legible (fun items => items.flatMap write ++ [stop]) items := by
  induction items with
  | nil =>
      rintro (_ | ⟨other, others⟩) rest rest' heq
      · exact ⟨rfl, (List.cons.inj heq).2⟩
      · obtain ⟨first, _, hwrite, hfirst⟩ := hstop other
        simp only [List.flatMap_cons, hwrite, List.cons_append] at heq
        exact absurd (List.cons.inj heq).1.symm hfirst
  | cons item items ih =>
      obtain ⟨hitem, hitems⟩ := List.forall_mem_cons.mp h
      rintro (_ | ⟨other, others⟩) rest rest' heq
      · obtain ⟨first, _, hwrite, hfirst⟩ := hstop item
        simp only [List.flatMap_cons, hwrite, List.cons_append] at heq
        exact absurd (List.cons.inj heq).1 hfirst
      · simp only [List.flatMap_cons, List.append_assoc] at heq
        obtain ⟨rfl, hrest⟩ := hitem other _ _ heq
        simp only [← List.append_assoc] at hrest
        obtain ⟨rfl, rfl⟩ := ih hitems others rest rest' hrest
        exact ⟨rfl, rfl⟩

namespace Text.Quoted

theorem exists_digitChar_of_mem_toDigits {n : Nat} {c : Char} (h : c ∈ Nat.toDigits 16 n) :
    ∃ digit, c = Nat.digitChar digit := by
  induction n using Nat.strongRecOn with
  | ind n ih =>
      rw [Nat.toDigits_eq_if (by decide)] at h
      split at h
      · exact ⟨n, List.mem_singleton.mp h⟩
      · rcases List.mem_append.mp h with hhigh | hlow
        · exact ih (n / 16) (by omega) hhigh
        · exact ⟨n % 16, List.mem_singleton.mp hlow⟩

theorem digitChar_injOn : ∀ left < 16, ∀ right < 16,
    Nat.digitChar left = Nat.digitChar right → left = right := by decide

theorem toDigits_injective : Function.Injective (Nat.toDigits 16) := by
  intro left
  induction left using Nat.strongRecOn with
  | ind left ih =>
      intro right h
      have hpositive (n : Nat) : 0 < (Nat.toDigits 16 n).length := Nat.length_toDigits_pos
      have hlength := congrArg List.length h
      rcases Nat.lt_or_ge left 16 with hleft | hleft <;>
        rcases Nat.lt_or_ge right 16 with hright | hright
      · rw [Nat.toDigits_of_lt_base hleft, Nat.toDigits_of_lt_base hright] at h
        exact digitChar_injOn left hleft right hright (List.head_eq_of_cons_eq h)
      · rw [Nat.toDigits_of_lt_base hleft, Nat.toDigits_of_base_le (by decide) hright,
          List.length_append, List.length_singleton, List.length_singleton] at hlength
        have hhigh := hpositive (right / 16)
        omega
      · rw [Nat.toDigits_of_base_le (by decide) hleft, Nat.toDigits_of_lt_base hright,
          List.length_append, List.length_singleton, List.length_singleton] at hlength
        have hhigh := hpositive (left / 16)
        omega
      · rw [Nat.toDigits_of_base_le (by decide) hleft,
          Nat.toDigits_of_base_le (by decide) hright] at h
        obtain ⟨hhigh, hlow⟩ := List.append_inj' h rfl
        have hhigh := ih (left / 16) (by omega) hhigh
        have hlow := digitChar_injOn _ (Nat.mod_lt _ (by decide)) _ (Nat.mod_lt _ (by decide))
          (List.head_eq_of_cons_eq hlow)
        omega

theorem closeBrace_notMem_hexDigits (c : Char) : closeBrace ∉ hexDigits c := by
  intro h
  obtain ⟨digit, hdigit⟩ := exists_digitChar_of_mem_toDigits h
  exact Nat.digitChar_ne closeBrace (by decide) hdigit.symm

theorem append_closeBrace_inj {digits digits' rest rest' : List Char} (hdigits : closeBrace ∉ digits)
    (hdigits' : closeBrace ∉ digits')
    (h : digits ++ closeBrace :: rest = digits' ++ closeBrace :: rest') :
    digits = digits' ∧ rest = rest' := by
  rcases List.append_eq_append_iff.mp h with ⟨_ | ⟨first, more⟩, rfl, hmore⟩ |
    ⟨_ | ⟨first, more⟩, rfl, hmore⟩
  · exact ⟨(List.append_nil _).symm, (List.cons.inj hmore).2⟩
  · obtain ⟨rfl, -⟩ := List.cons.inj hmore
    exact absurd (List.mem_append_right _ List.mem_cons_self) hdigits'
  · exact ⟨List.append_nil _, (List.cons.inj hmore).2.symm⟩
  · obtain ⟨rfl, -⟩ := List.cons.inj hmore
    exact absurd (List.mem_append_right _ List.mem_cons_self) hdigits

theorem shortEscape_inj {c d letter : Char} (h : shortEscape c = some letter)
    (h' : shortEscape d = some letter) : c = d := by
  rw [shortEscape] at h h'
  split_ifs at h <;> cases h <;> split_ifs at h' <;> simp_all

theorem shortEscape_ne_u {c : Char} : shortEscape c ≠ some 'u' := by
  grind [shortEscape]

/-- The three ways in which a character is written. -/
inductive Encoded (c : Char) : List Char → Prop where
  | short (letter : Char) : letter ≠ 'u' → shortEscape c = some letter → Encoded c ['\\', letter]
  | plain : c ≠ '"' → c ≠ '\\' → Encoded c [c]
  | hexadecimal : Encoded c ('\\' :: 'u' :: openBrace :: (hexDigits c ++ [closeBrace]))

theorem encoded (c : Char) : Encoded c (encodeChar c) := by
  rw [encodeChar]
  rcases hletter : shortEscape c with _ | letter
  · by_cases hplain : isPlain c = true
    · simp only [hplain, if_true]
      simp only [isPlain, Bool.and_eq_true, bne_iff_ne] at hplain
      exact .plain hplain.1.1.1 hplain.1.1.2
    · simp only [hplain]
      exact .hexadecimal
  · exact .short letter (fun hu => shortEscape_ne_u (hu ▸ hletter)) hletter

theorem legible_encodeChar (c : Char) : Legible encodeChar c := by
  intro d rest rest' h
  have hc := encoded c
  have hd := encoded d
  generalize encodeChar c = written at hc h
  generalize encodeChar d = written' at hd h
  cases hc with
  | short letter hletter hshort =>
      cases hd with
      | short letter' hletter' hshort' =>
          simp only [List.cons_append, List.nil_append, List.cons.injEq, true_and] at h
          exact ⟨shortEscape_inj hshort (h.1 ▸ hshort'), h.2⟩
      | plain hquote hbackslash => exact absurd (List.cons.inj h).1.symm hbackslash
      | hexadecimal => exact absurd (List.cons.inj (List.cons.inj h).2).1 hletter
  | plain hquote hbackslash =>
      cases hd with
      | short letter' hletter' hshort' => exact absurd (List.cons.inj h).1 hbackslash
      | plain hquote' hbackslash' => exact List.cons.inj h
      | hexadecimal => exact absurd (List.cons.inj h).1 hbackslash
  | hexadecimal =>
      cases hd with
      | short letter' hletter' hshort' =>
          exact absurd (List.cons.inj (List.cons.inj h).2).1.symm hletter'
      | plain hquote' hbackslash' => exact absurd (List.cons.inj h).1.symm hbackslash'
      | hexadecimal =>
          simp only [List.cons_append, List.append_assoc, List.nil_append, List.cons.injEq,
            true_and] at h
          obtain ⟨hdigits, hrest⟩ := append_closeBrace_inj (closeBrace_notMem_hexDigits c)
            (closeBrace_notMem_hexDigits d) h
          exact ⟨Char.toNat_inj.mp (toDigits_injective hdigits), hrest⟩

theorem exists_encodeChar_eq_cons (c : Char) :
    ∃ first others, encodeChar c = first :: others ∧ first ≠ '"' := by
  have hc := encoded c
  generalize encodeChar c = written at hc
  cases hc with
  | short letter _ _ => exact ⟨_, _, rfl, by decide⟩
  | plain hquote _ => exact ⟨_, _, rfl, hquote⟩
  | hexadecimal => exact ⟨_, _, rfl, by decide⟩

/-- A quoted text ends at the first quote that is not escaped. -/
theorem legible_encode (text : List Char) : Legible encode text := by
  intro other rest rest' h
  have hchars := Legible.flatMap exists_encodeChar_eq_cons fun c (_ : c ∈ text) => legible_encodeChar c
  exact hchars other rest rest' (List.cons.inj h).2

end Text.Quoted

/-- No name of a kind is the beginning of another one. -/
theorem Kind.eq_of_name_prefix : ∀ kind ∈ Kind.all, ∀ kind' ∈ Kind.all,
    kind.name.toList <+: kind'.name.toList → kind = kind' := by decide

theorem Kind.legible_name (kind : Kind) : Legible (fun kind : Kind => kind.name.toList) kind := by
  intro other rest rest' h
  have hnames : kind = other := by
    rcases List.append_eq_append_iff.mp h with ⟨more, hmore, _⟩ | ⟨more, hmore, _⟩
    · exact Kind.eq_of_name_prefix kind kind.mem_all other other.mem_all ⟨more, hmore.symm⟩
    · exact (Kind.eq_of_name_prefix other other.mem_all kind kind.mem_all ⟨more, hmore.symm⟩).symm
  subst hnames
  exact ⟨rfl, List.append_cancel_left h⟩

namespace SExpression

/-- Behind a heading without a text no quote follows where the text would stand. -/
theorem heading_append_inj {label label' : Label} {rest rest' : List Char}
    (hrest : ¬ [' ', '"'] <+: rest) (hrest' : ¬ [' ', '"'] <+: rest')
    (h : heading label ++ rest = heading label' ++ rest') : label = label' ∧ rest = rest' := by
  obtain ⟨kind, text⟩ := label
  obtain ⟨kind', text'⟩ := label'
  simp only [heading, List.append_assoc] at h
  obtain ⟨rfl, htail⟩ := kind.legible_name kind' _ _ h
  cases text with
  | none =>
      cases text' with
      | none => exact ⟨rfl, htail⟩
      | some text' => exact absurd ⟨_, htail.symm⟩ hrest
  | some text =>
      cases text' with
      | none => exact absurd ⟨_, htail⟩ hrest'
      | some text' =>
          obtain ⟨htext, hrests⟩ := Text.Quoted.legible_encode text.toList text'.toList _ _
            (List.cons.inj htail).2
          rw [String.toList_inj.mp htext]
          exact ⟨rfl, hrests⟩

/-- A child, with what stands before it. -/
def separated (layout : Layout) (depth : Nat) (child : Outline Label) : List Char :=
  separator depth layout ++ chars layout depth child

theorem exists_chars_eq_cons (layout : Layout) (depth : Nat) (tree : Outline Label) :
    ∃ others, chars layout depth tree = '(' :: others := by
  obtain ⟨label, children⟩ := tree
  exact ⟨_, chars_node layout depth label children⟩

theorem exists_separated_eq_cons (layout : Layout) (depth : Nat) (child : Outline Label) :
    ∃ first others, separated layout depth child = first :: others ∧ first ≠ ')' := by
  cases layout with
  | compact => exact ⟨' ', _, rfl, by decide⟩
  | indented => exact ⟨'\n', _, rfl, by decide⟩

/-- Children, up to the parenthesis behind them. -/
def closing (layout : Layout) (depth : Nat) (children : List (Outline Label)) : List Char :=
  children.flatMap (separated layout depth) ++ [')']

theorem chars_node_append (layout : Layout) (depth : Nat) (label : Label)
    (children : List (Outline Label)) (rest : List Char) :
    chars layout depth (.node label children) ++ rest =
      '(' :: (heading label ++ (closing layout (depth + 1) children ++ rest)) := by
  rw [chars_node, closing]
  simp only [List.cons_append, List.append_assoc]
  rfl

/-- Children do not look like a text. -/
theorem not_quote_prefix_closing (layout : Layout) (depth : Nat) (children : List (Outline Label))
    (rest : List Char) : ¬ [' ', '"'] <+: closing layout depth children ++ rest := by
  cases children with
  | nil => simp [closing]
  | cons child children =>
      obtain ⟨others, hchars⟩ := exists_chars_eq_cons layout depth child
      cases layout <;> simp [closing, separated, separator, hchars]

theorem legible_separated {layout : Layout} {depth : Nat} {child : Outline Label}
    (h : Legible (chars layout depth) child) : Legible (separated layout depth) child := by
  intro other rest rest' heq
  rw [separated, separated, List.append_assoc, List.append_assoc] at heq
  exact h other rest rest' (List.append_cancel_left heq)

theorem legible_chars (layout : Layout) (depth : Nat) (tree : Outline Label) :
    Legible (chars layout depth) tree := by
  induction tree using Outline.inductionOn generalizing depth with
  | node label children ih =>
      rintro ⟨label', children'⟩ rest rest' h
      rw [chars_node_append, chars_node_append] at h
      obtain ⟨rfl, hclosing⟩ := heading_append_inj (not_quote_prefix_closing _ _ children rest)
        (not_quote_prefix_closing _ _ children' rest') (List.cons.inj h).2
      have hchildren : Legible (closing layout (depth + 1)) children :=
        Legible.flatMap (exists_separated_eq_cons layout (depth + 1)) fun child hchild =>
          legible_separated (ih child hchild (depth + 1))
      obtain ⟨rfl, rfl⟩ := hchildren children' rest rest' hclosing
      exact ⟨rfl, rfl⟩

theorem chars_injective (layout : Layout) (depth : Nat) :
    Function.Injective (chars layout depth) := by
  intro tree other h
  have hlegible := legible_chars layout depth tree other [] []
  rw [List.append_nil, List.append_nil] at hlegible
  exact (hlegible h).1

end SExpression

namespace Node

theorem format_inj {layout : Layout} {left right : Node} :
    left.format layout = right.format layout ↔ left.outline = right.outline := by
  rw [format, format, String.ofList_inj]
  exact (SExpression.chars_injective layout 0).eq_iff

/-- **Expressions are unambiguous.** In either layout, two nodes have the same expression if and only
if they are equal trees. -/
theorem format_eq_format_iff (layout : Layout) (left right : Node) :
    left.format layout = right.format layout ↔ (left == right) = true := by
  rw [Tree.beq_iff_outline_eq]
  exact format_inj

end Node

end TreeRules
