import TreeRules.Proofs.Appearance
import TreeRules.Proofs.Legibility

/-!
# The two layouts

An expression is a row of segments, one for every node in preorder: the opening parenthesis with the
heading of the node, and the parentheses that close behind it. How many close there depends on the
tree alone, so the layouts differ only in what stands before the segments. No segment holds a newline,
since quoted texts have none; so the segments of an indented expression stand on one line each, and
putting all of them on one line gives the compact expression.
-/

namespace TreeRules

namespace Text.Quoted

theorem shortEscape_ne_newline {c : Char} : shortEscape c ≠ some '\n' := by
  grind [shortEscape]

theorem newline_notMem_hexDigits (c : Char) : '\n' ∉ hexDigits c := by
  intro h
  obtain ⟨digit, hdigit⟩ := exists_digitChar_of_mem_toDigits h
  exact Nat.digitChar_ne '\n' (by decide) hdigit.symm

theorem newline_notMem_encodeChar (c : Char) : '\n' ∉ encodeChar c := by
  rw [encodeChar]
  rcases hletter : shortEscape c with _ | letter
  · have hc : '\n' ≠ c := by
      rintro rfl
      exact absurd hletter (by decide)
    by_cases hplain : isPlain c = true
    · simpa [hplain] using hc
    · have hdigits := newline_notMem_hexDigits c
      simp [hplain, hdigits, openBrace, closeBrace]
  · have hne : '\n' ≠ letter := by
      rintro rfl
      exact shortEscape_ne_newline hletter
    simpa using hne

theorem newline_notMem_encode (text : List Char) : '\n' ∉ encode text := by
  simp only [encode, List.mem_cons, List.mem_append, List.mem_flatMap, List.not_mem_nil, or_false]
  rintro (hquote | ⟨c, _, hc⟩ | hquote)
  · exact absurd hquote (by decide)
  · exact newline_notMem_encodeChar c hc
  · exact absurd hquote (by decide)

end Text.Quoted

theorem Kind.newline_notMem_name : ∀ kind ∈ Kind.all, '\n' ∉ kind.name.toList := by decide

namespace SExpression

theorem newline_notMem_heading (label : Label) : '\n' ∉ heading label := by
  obtain ⟨kind, text⟩ := label
  rw [heading, List.mem_append]
  rintro (hname | htext)
  · exact Kind.newline_notMem_name kind kind.mem_all hname
  · cases text with
    | none => cases htext
    | some text =>
        rcases List.mem_cons.mp htext with hblank | htext
        · exact absurd hblank (by decide)
        · exact Text.Quoted.newline_notMem_encode text.toList htext

/-- What an expression holds of one node: its label, at some depth below the root, and how many
parentheses close behind it. -/
structure Segment where
  depth : Nat
  label : Label
  closing : Nat

namespace Segment

def body (segment : Segment) : List Char :=
  '(' :: (heading segment.label ++ List.replicate segment.closing ')')

/-- The segment as a line of its own. -/
def line (segment : Segment) : List Char :=
  List.replicate (2 * segment.depth) ' ' ++ segment.body

def close (segment : Segment) : Segment := { segment with closing := segment.closing + 1 }

theorem body_close (segment : Segment) : segment.close.body = segment.body ++ [')'] := by
  simp [body, close, List.replicate_succ']

theorem newline_notMem_body (segment : Segment) : '\n' ∉ segment.body := by
  have hheading := newline_notMem_heading segment.label
  simp [body, hheading, List.mem_replicate]

theorem newline_notMem_line (segment : Segment) : '\n' ∉ segment.line := by
  have hbody := segment.newline_notMem_body
  simp [line, hbody, List.mem_replicate]

end Segment

mutual

/-- The segments of a tree that lies `depth` levels below the root, in preorder. -/
def segments (depth : Nat) : Outline Label → List Segment
  | .node label children =>
    (⟨depth, label, 0⟩ :: segmentsOfAll (depth + 1) children).modifyLast Segment.close

def segmentsOfAll (depth : Nat) : List (Outline Label) → List Segment
  | [] => []
  | child :: rest => segments depth child ++ segmentsOfAll depth rest

end

theorem segmentsOfAll_eq_flatMap (depth : Nat) (trees : List (Outline Label)) :
    segmentsOfAll depth trees = trees.flatMap (segments depth) := by
  induction trees with
  | nil => rfl
  | cons tree rest ih => rw [segmentsOfAll, ih, List.flatMap_cons]

theorem segments_node (depth : Nat) (label : Label) (children : List (Outline Label)) :
    segments depth (.node label children) =
      (⟨depth, label, 0⟩ :: children.flatMap (segments (depth + 1))).modifyLast Segment.close := by
  rw [segments, segmentsOfAll_eq_flatMap]

/-- Every segment behind what separates it from the one before. -/
def row (layout : Layout) (segments : List Segment) : List Char :=
  segments.flatMap fun segment => separator segment.depth layout ++ segment.body

theorem row_modifyLast_close (layout : Layout) {segments : List Segment} (h : segments ≠ []) :
    row layout (segments.modifyLast Segment.close) = row layout segments ++ [')'] := by
  obtain ⟨front, last, rfl⟩ := (List.eq_nil_or_concat segments).resolve_left h
  rw [List.concat_eq_append, List.modifyLast_concat, row, row, List.flatMap_append,
    List.flatMap_append, List.flatMap_singleton, List.flatMap_singleton, Segment.body_close]
  simp only [List.append_assoc]
  rfl

/-- **An expression is the row of its segments,** in either layout. -/
theorem separated_eq_row (layout : Layout) (depth : Nat) (tree : Outline Label) :
    separated layout depth tree = row layout (segments depth tree) := by
  induction tree using Outline.inductionOn generalizing depth with
  | node label children ih =>
      have hchildren : children.flatMap (separated layout (depth + 1)) =
          row layout (children.flatMap (segments (depth + 1))) := by
        rw [row, List.flatMap_assoc]
        exact List.flatMap_congr fun child hchild => ih child hchild (depth + 1)
      have hnode : separated layout depth (.node label children) =
          separator depth layout ++
            ('(' :: heading label ++ (children.flatMap (separated layout (depth + 1)) ++ [')'])) := by
        rw [separated, chars_node]
        simp only [List.cons_append, List.append_assoc]
        rfl
      rw [segments_node, row_modifyLast_close layout (List.cons_ne_nil _ _), hnode, hchildren]
      simp [row, Segment.body]

theorem segments_ne_nil (depth : Nat) (tree : Outline Label) : segments depth tree ≠ [] := by
  intro hnil
  obtain ⟨first, others, hseparated, _⟩ := exists_separated_eq_cons .compact depth tree
  rw [separated_eq_row, hnil] at hseparated
  cases hseparated

/-- Closing a node changes neither the depths nor the labels. -/
theorem map_modifyLast_close (segments : List Segment) :
    (segments.modifyLast Segment.close).map (fun segment => (segment.depth, segment.label)) =
      segments.map fun segment => (segment.depth, segment.label) := by
  rcases List.eq_nil_or_concat segments with rfl | ⟨front, last, rfl⟩
  · rfl
  · rw [List.concat_eq_append, List.modifyLast_concat, List.map_append, List.map_append]
    rfl

/-- The segments of a tree are its nodes in preorder. -/
theorem map_segments (depth : Nat) (tree : Tree Label) :
    (segments depth tree.outline).map (fun segment => (segment.depth, segment.label)) =
      tree.appearances.map fun x => (depth + x.above.length, x.node.label) := by
  induction tree using Tree.inductionOn generalizing depth with
  | step tree ih =>
      have hchildren : ((tree.children.map Tree.outline).flatMap (segments (depth + 1))).map
            (fun segment => (segment.depth, segment.label)) =
          (tree.children.flatMap Tree.appearances).map
            fun x => (depth + 1 + x.above.length, x.node.label) := by
        rw [List.flatMap_map, List.map_flatMap, List.map_flatMap]
        exact List.flatMap_congr fun child hchild => ih child hchild (depth + 1)
      have hunder : ((tree.children.flatMap Tree.appearances).map (Appearance.under tree)).map
            (fun x => (depth + x.above.length, x.node.label)) =
          (tree.children.flatMap Tree.appearances).map
            fun x => (depth + 1 + x.above.length, x.node.label) := by
        rw [List.map_map]
        refine List.map_congr_left fun x _ => ?_
        simp only [Function.comp_apply, Appearance.above_under, Appearance.node_under,
          List.length_cons, Nat.add_assoc, Nat.add_comm 1]
      rw [Tree.appearances_eq, List.map_cons, hunder, ← hchildren]
      obtain ⟨i, label, children⟩ := tree
      rw [Tree.outline_node, segments_node, map_modifyLast_close, List.map_cons]
      rfl

/-! ### The lines of the indented layout -/

theorem row_indented {segments : List Segment} (h : segments ≠ []) :
    row .indented segments = '\n' :: ['\n'].intercalate (segments.map Segment.line) := by
  induction segments with
  | nil => exact absurd rfl h
  | cons segment rest ih =>
      rcases rest with _ | ⟨next, rest⟩
      · simp [row, separator, Segment.line]
      · have hrest := ih (List.cons_ne_nil _ _)
        have hlines : (next :: rest).map Segment.line ≠ [] := List.cons_ne_nil _ _
        rw [row, List.flatMap_cons, ← row, hrest, List.map_cons (a := segment),
          List.intercalate_cons_of_ne_nil hlines]
        simp [separator, Segment.line]

/-- **Every segment of an indented expression stands on a line of its own.** -/
theorem splitOn_chars_indented (tree : Outline Label) :
    (chars .indented 0 tree).splitOn '\n' = (segments 0 tree).map Segment.line := by
  have hrow : '\n' :: chars .indented 0 tree =
      '\n' :: ['\n'].intercalate ((segments 0 tree).map Segment.line) := by
    rw [← row_indented (segments_ne_nil 0 tree), ← separated_eq_row]
    rfl
  have hlines : ∀ line ∈ (segments 0 tree).map Segment.line, '\n' ∉ line :=
    List.forall_mem_map.mpr fun segment _ => segment.newline_notMem_line
  rw [(List.cons.inj hrow).2]
  exact List.splitOn_intercalate '\n' hlines
    (fun hnil => segments_ne_nil 0 tree (List.map_eq_nil_iff.mp hnil))

/-! ### Joining the lines -/

/-- The text with every newline, and the blanks that follow it, replaced by one blank. -/
def joined : List Char → List Char
  | [] => []
  | c :: rest =>
    if c = '\n' then ' ' :: joined (rest.dropWhile (· = ' ')) else c :: joined rest
termination_by text => text.length
decreasing_by
  · exact Nat.lt_succ_of_le (List.dropWhile_suffix _).length_le
  · exact Nat.lt_succ_self _

theorem joined_append {front : List Char} (h : '\n' ∉ front) (rest : List Char) :
    joined (front ++ rest) = front ++ joined rest := by
  induction front with
  | nil => rfl
  | cons c front ih =>
      obtain ⟨hc, hfront⟩ := List.ne_and_not_mem_of_not_mem_cons h
      rw [List.cons_append, joined, if_neg (Ne.symm hc), ih hfront, List.cons_append]

theorem joined_indented (depth : Nat) (rest : List Char) :
    joined (separator depth .indented ++ '(' :: rest) = ' ' :: joined ('(' :: rest) := by
  have hblanks : (List.replicate (2 * depth) ' ' ++ '(' :: rest).dropWhile (· = ' ') =
      '(' :: rest := by
    rw [List.dropWhile_append_of_pos (by simp)]
    rfl
  rw [separator, List.cons_append, joined, if_pos rfl, hblanks]

theorem joined_row (segments : List Segment) :
    joined (row .indented segments) = row .compact segments := by
  induction segments with
  | nil => rw [row, List.flatMap_nil, joined]; rfl
  | cons segment segments ih =>
      have hbody := segment.newline_notMem_body
      rw [row, List.flatMap_cons, ← row, List.append_assoc, Segment.body, List.cons_append,
        joined_indented, ← List.cons_append, ← Segment.body, joined_append hbody, ih]
      rfl

theorem joined_chars_indented (tree : Outline Label) :
    joined (chars .indented 0 tree) = chars .compact 0 tree := by
  obtain ⟨others, hchars⟩ := exists_chars_eq_cons .indented 0 tree
  have hrow : joined (separated .indented 0 tree) = separated .compact 0 tree := by
    rw [separated_eq_row, joined_row, separated_eq_row]
  rw [separated, hchars, joined_indented] at hrow
  rw [hchars]
  exact (List.cons.inj hrow).2

end SExpression

/-- **The two layouts agree.** An indented expression has a line for every node, in preorder: twice
as many blanks as there are nodes above it, an opening parenthesis, its kind and its quoted text, and
nothing but closing parentheses behind them. Joining the lines gives the compact expression. -/
theorem Node.format_layouts (node : Node) :
    let lines := (node.format .indented).toList.splitOn '\n'
    lines.length = Host.subtreeSize node ∧
      List.Forall₂ (fun x line => ∃ closing,
          line = List.replicate (2 * x.above.length) ' ' ++
            '(' :: (SExpression.heading x.node.label ++ List.replicate closing ')'))
        node.appearances lines ∧
      String.ofList (SExpression.joined (node.format .indented).toList) = node.format .compact := by
  have hlines : (node.format .indented).toList.splitOn '\n' =
      (SExpression.segments 0 node.outline).map SExpression.Segment.line := by
    rw [Node.format, String.toList_ofList, SExpression.splitOn_chars_indented]
  have hsegments := SExpression.map_segments 0 node
  have hsize : node.appearances.length = Host.subtreeSize node := by
    rw [← Host.length_preorder, ← Tree.preorder_eq_hostPreorder, ← Tree.map_node_appearances,
      List.length_map]
  have hlength := congrArg List.length hsegments
  rw [List.length_map, List.length_map] at hlength
  refine ⟨?_, ?_, ?_⟩
  · rw [hlines, List.length_map, hlength, hsize]
  · rw [hlines, List.forall₂_map_right_iff, List.forall₂_iff_get]
    refine ⟨hlength.symm, fun i hx hsegment => ?_⟩
    have hi := List.getElem_of_eq hsegments (by simpa using hsegment)
    simp only [List.getElem_map, Prod.mk.injEq, Nat.zero_add] at hi
    obtain ⟨hdepth, hlabel⟩ := hi
    refine ⟨((SExpression.segments 0 node.outline).get ⟨i, hsegment⟩).closing, ?_⟩
    simp [SExpression.Segment.line, SExpression.Segment.body, hdepth, hlabel]
  · rw [Node.format, String.toList_ofList, SExpression.joined_chars_indented, Node.format]

end TreeRules
