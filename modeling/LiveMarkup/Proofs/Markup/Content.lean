import LiveMarkup.Proofs.Markup.Piece

/-!
# Reading content

The content of an element is a choice between pieces again and again, where the
first reader that does not refuse decides. So for every kind of piece the readers
in front of its own have to refuse it.

Content is read with a bound on the number of its pieces, nested or in a row, and
the induction over a layout of content carries that the bound is no less than the
length of the text. Behind content stands a closing tag, which no piece can be
mistaken for.

## Main results

* `takes_element` — an element is taken if its content is.
* `takes_content` — content is taken, whatever it is made of.
-/

namespace LiveMarkup.Markup

open Reader

/-! ## What pieces begin with -/

theorem CommentText.begins {piece body : List Char} (h : CommentText piece body) :
    ∃ tail, piece = '<' :: '!' :: '-' :: tail :=
  ⟨_, h.1⟩

theorem SectionText.begins {piece body : List Char} (h : SectionText piece body) :
    ∃ tail, piece = '<' :: '!' :: '[' :: tail :=
  ⟨_, h.1⟩

theorem InstructionText.begins {piece target data : List Char}
    (h : InstructionText piece target data) : ∃ tail, piece = '<' :: '?' :: tail := by
  cases h
  exact ⟨_, rfl⟩

theorem CommentText.ne_nil {piece body : List Char} (h : CommentText piece body) : piece ≠ [] := by
  obtain ⟨tail, rfl⟩ := h.begins
  exact List.cons_ne_nil _ _

theorem SectionText.ne_nil {piece body : List Char} (h : SectionText piece body) : piece ≠ [] := by
  obtain ⟨tail, rfl⟩ := h.begins
  exact List.cons_ne_nil _ _

theorem InstructionText.ne_nil {piece target data : List Char}
    (h : InstructionText piece target data) : piece ≠ [] := by
  obtain ⟨tail, rfl⟩ := h.begins
  exact List.cons_ne_nil _ _

theorem TagText.begins {tag name : List Char} {attributes : List Attribute}
    (h : TagText tag name attributes) :
    ∃ c tail, tag = '<' :: c :: tail ∧ Grammar.isNameStart c = true := by
  cases h with
  | mk hName _ _ _ =>
      obtain ⟨first, others, rfl, hFirst, _⟩ := hName
      exact ⟨first, _, rfl, hFirst⟩

theorem TagText.two_le_length {tag name : List Char} {attributes : List Attribute}
    (h : TagText tag name attributes) : 2 ≤ tag.length := by
  obtain ⟨c, tail, rfl, _⟩ := h.begins
  exact Nat.le_add_left 2 _

theorem ClosingText.length_lt {name inner behind : List Char}
    (h : ClosingText name inner behind) : inner.length < behind.length := by
  cases h with
  | itself => decide
  | tag _ =>
      simp only [List.length_append, List.length_cons, List.length_nil]
      omega

theorem ClosingText.begins {name inner behind : List Char} (h : ClosingText name inner behind) :
    ∃ c tail, behind = c :: tail ∧ (c = '/' ∨ c = '>') := by
  cases h with
  | itself => exact ⟨'/', _, rfl, .inl rfl⟩
  | tag _ => exact ⟨'>', _, rfl, .inr rfl⟩

/-- A text that is not empty begins with a character; behind a run of character
data it is one that ends the run. -/
theorem ContentText.begins {afterRun : Bool} {line : Nat} {text : List Char} {nodes : List Node}
    (h : ContentText afterRun line text nodes) :
    text = [] ∧ nodes = [] ∨ ∃ c tail, text = c :: tail ∧ (afterRun = true → c = '<') := by
  cases h with
  | nil => exact .inl ⟨rfl, rfl⟩
  | blank hNe _ _ =>
      obtain ⟨c, run, rfl⟩ := List.exists_cons_of_ne_nil hNe
      exact .inr ⟨c, _, rfl, fun hFalse => nomatch hFalse⟩
  | @run _ written _ _ _ _ hMark _ =>
      have hNe : written ≠ [] := by
        rintro rfl
        exact hMark (fun _ hMem => nomatch hMem)
      obtain ⟨c, run, rfl⟩ := List.exists_cons_of_ne_nil hNe
      exact .inr ⟨c, _, rfl, fun hFalse => nomatch hFalse⟩
  | cdata hPiece _ =>
      obtain ⟨tail, rfl⟩ := hPiece.begins
      exact .inr ⟨'<', _, rfl, fun _ => rfl⟩
  | comment hPiece _ =>
      obtain ⟨tail, rfl⟩ := hPiece.begins
      exact .inr ⟨'<', _, rfl, fun _ => rfl⟩
  | instruction hPiece _ =>
      obtain ⟨tail, rfl⟩ := hPiece.begins
      exact .inr ⟨'<', _, rfl, fun _ => rfl⟩
  | element hTag _ _ _ =>
      obtain ⟨c, tail, rfl, _⟩ := hTag.begins
      exact .inr ⟨'<', _, rfl, fun _ => rfl⟩

/-- Nothing is written only where there is nothing to write. -/
theorem ContentText.eq_nil {afterRun : Bool} {line : Nat} {text : List Char} {nodes : List Node}
    (h : ContentText afterRun line text nodes) (hText : text = []) : nodes = [] := by
  rcases h.begins with ⟨_, hNodes⟩ | ⟨c, tail, hCons, _⟩
  · exact hNodes
  · rw [hText] at hCons
    cases hCons

/-- What follows a run of character data ends it. -/
theorem ContentText.endsHere {line : Nat} {text rest : List Char} {nodes : List Node}
    (h : ContentText true line text nodes) (hRest : EndsHere (· != '<') rest) :
    EndsHere (· != '<') (text ++ rest) := by
  rcases h.begins with ⟨rfl, _⟩ | ⟨c, tail, rfl, hFirst⟩
  · exact hRest
  · obtain rfl := hFirst rfl
    exact endsHere_cons (by decide) _

/-! ## Elements -/

/-- An element as it is written, with the element that it is read as. -/
structure WrittenTag.Reads (written : WrittenTag) (pieces : List WrittenNode) (tag : Tag)
    (content : List Node) : Prop where
  name : written.name = tag.name
  line : written.start.line = tag.line
  attributes : readAttributes written.name [] written.attributes = .ok tag.attributes
  content : WrittenNode.readAll pieces = .ok content
  close : written.checkClose = .ok ()

theorem WrittenTag.Reads.read_element {written : WrittenTag} {pieces : List WrittenNode}
    {tag : Tag} {content : List Node} (h : written.Reads pieces tag content) :
    (WrittenNode.element written pieces).read = .ok (some (.element tag content)) := by
  rw [WrittenNode.read, h.attributes, h.content, h.close, h.name, h.line]
  rfl

theorem WrittenTag.Reads.read_document {written : WrittenTag} {pieces : List WrittenNode}
    {tag : Tag} {content : List Node} (h : written.Reads pieces tag content)
    (prolog epilog : List WrittenNode) :
    (WrittenDocument.mk prolog (some (written, pieces)) epilog).read =
      .ok ⟨instructionsOf prolog ++ instructionsOf epilog, tag, content⟩ := by
  simp only [WrittenDocument.read]
  rw [h.attributes, h.content, h.close, h.name, h.line]
  rfl

theorem takes_closeTag {name gap : List Char} (p : Text.Position) (rest : List Char)
    (hName : IsName name) (hGap : IsGap gap) :
    Takes Grammar.closeTag p (['<', '/'] ++ (name ++ (gap ++ ['>']))) rest
      ⟨p, String.ofList name⟩ := by
  refine Took.named (takes_position (takes_bind (took_literal _ _ p) ?_)) _
  refine takes_bind (takes_name _ hName ?_) ?_
  · rw [List.append_assoc]
    exact hGap.endsHere_isNameChar (endsHere_cons (by decide) _)
  refine takes_bind (takes_optionalSpace _ hGap (endsHere_cons (by decide) _)) ?_
  exact takes_return (took_literal _ _ _) _

/-- What follows the tag of an element. -/
def closingWithin (depth : Nat) (start : Text.Position) (name : String)
    (attributes : List WrittenAttribute) : Reader (WrittenTag × List WrittenNode) :=
  orElse
    (do
      literal ['/', '>']
      return (⟨start, name, attributes, none⟩, []))
    (do
      literal ['>']
      let content ← Grammar.contentWithin depth
      let close ← Grammar.closeTag
      return (⟨start, name, attributes, some close⟩, content))

/-- A tag is taken, and what follows it is the rest of the element. -/
theorem takes_tag {tag name behind : List Char} {attributes : List Attribute}
    (h : TagText tag name attributes) (p : Text.Position) (rest : List Char)
    (hBehind : ∃ c tail, behind = c :: tail ∧ (c = '/' ∨ c = '>')) :
    ∃ written, readAttributes (String.ofList name) [] written = .ok attributes ∧
      ∀ depth element,
        Takes (closingWithin depth p (String.ofList name) written) (p.advance tag) behind rest
          element →
        Takes (Grammar.elementWithin (depth + 1)) p (tag ++ behind) rest element := by
  cases h with
  | @mk _ text gap _ hName hAttributes hDistinct hGap =>
      obtain ⟨c, tail, rfl, hFirst⟩ := hBehind
      have hSpace : EndsHere Grammar.isSpace (c :: tail ++ rest) := by
        rcases hFirst with rfl | rfl <;> exact endsHere_cons (by decide) _
      have hStart : EndsHere Grammar.isNameStart (c :: tail ++ rest) := by
        rcases hFirst with rfl | rfl <;> exact endsHere_cons (by decide) _
      have hChar : EndsHere Grammar.isNameChar (c :: tail ++ rest) := by
        rcases hFirst with rfl | rfl <;> exact endsHere_cons (by decide) _
      have hLimit : text.length ≤ (text ++ (gap ++ (c :: tail ++ rest))).length + 1 :=
        Nat.le_succ_of_le (List.prefix_append _ _).length_le
      obtain ⟨written, hTaken, hRead⟩ := takes_attributes hAttributes
        (fun q => refused_attrib q hGap hSpace hStart) hLimit ((p.advance ['<']).advance name)
      have hMany : Takes (many Grammar.attrib) ((p.advance ['<']).advance name) text
          (gap ++ (c :: tail) ++ rest) written := by
        rw [List.append_assoc]
        exact Took.many hTaken
      refine ⟨written, hRead _ [] hDistinct, ?_⟩
      intro depth element hClosing
      have hShape : (['<'] ++ (name ++ (text ++ gap))) ++ (c :: tail) =
          ['<'] ++ (name ++ (text ++ (gap ++ (c :: tail)))) := by
        simp only [List.append_assoc]
      simp only [Text.Position.advance_append] at hClosing
      rw [hShape, Grammar.elementWithin]
      refine Took.named (takes_position (takes_bind (took_literal _ _ p) ?_)) _
      refine takes_bind (takes_name _ hName ?_) ?_
      · rw [List.append_assoc, List.append_assoc]
        exact hAttributes.endsHere_isNameChar (hGap.endsHere_isNameChar hChar)
      exact takes_bind hMany (takes_bind (takes_optionalSpace _ hGap hSpace) hClosing)

/-- **An element is taken if its content is**, wherever a closing tag follows. -/
theorem takes_element {tag name inner behind : List Char} {attributes : List Attribute}
    {content : List Node} {line depth : Nat} (hTag : TagText tag name attributes)
    (hClosing : ClosingText name inner behind) (hEmpty : inner = [] → content = [])
    (hContent : ∀ q rest, q.line = lineAfter line tag → ['<', '/'] <+: rest →
      ∃ written, Takes (Grammar.contentWithin depth) q inner rest written ∧
        WrittenNode.readAll written = .ok content)
    {p : Text.Position} (hLine : p.line = line) (rest : List Char) :
    ∃ written pieces, Takes (Grammar.elementWithin (depth + 1)) p (tag ++ behind) rest
        (written, pieces) ∧
      written.Reads pieces ⟨String.ofList name, attributes, line⟩ content := by
  have hName : IsName name := by
    cases hTag with
    | mk hName _ _ _ => exact hName
  obtain ⟨written, hRead, hTaken⟩ := takes_tag hTag p rest hClosing.begins
  cases hClosing with
  | itself =>
      refine ⟨⟨p, String.ofList name, written, none⟩, [], hTaken depth _ ?_, ?_⟩
      · exact Took.orElse_left (takes_return (took_literal ['/', '>'] rest _) _) _
      · rw [hEmpty rfl]
        exact ⟨rfl, hLine, hRead, by rw [WrittenNode.readAll], rfl⟩
  | @tag inner gap hGap =>
      have hInside : ((p.advance tag).advance ['>']).line = lineAfter line tag := by
        rw [Text.Position.line_advance, Text.Position.line_advance, hLine, lineAfter]
        rfl
      obtain ⟨pieces, hPieces, hReadAll⟩ := hContent _
        ((['<', '/'] ++ (name ++ (gap ++ ['>']))) ++ rest) hInside ⟨_, rfl⟩
      have hClose := takes_closeTag (((p.advance tag).advance ['>']).advance inner) rest hName hGap
      refine ⟨⟨p, String.ofList name, written,
        some ⟨((p.advance tag).advance ['>']).advance inner, String.ofList name⟩⟩, pieces,
        hTaken depth _ (Took.orElse_right ?_ ?_), ?_⟩
      · exact (refused_literal _ (by simp)).bind _
      · exact takes_bind (took_literal ['>'] _ _) (takes_bind hPieces (takes_return hClose _))
      · exact ⟨rfl, hLine, hRead, hReadAll, if_pos rfl⟩

/-! ## Content -/

/-- A piece of content. -/
def pieceWithin (depth : Nat) : Reader WrittenNode :=
  orElse
    (do
      let (tag, content) ← Grammar.elementWithin depth
      return .element tag content) <|
    orElse Grammar.comment <| orElse Grammar.instruction <| orElse Grammar.cdata Grammar.text

theorem contentWithin_succ (depth : Nat) :
    Grammar.contentWithin (depth + 1) =
      orElse
        (do
          let piece ← pieceWithin depth
          let rest ← Grammar.contentWithin depth
          return piece :: rest)
        (pure []) := by
  rw [Grammar.contentWithin]
  rfl

theorem takes_contentWithin_cons {depth : Nat} {p : Text.Position}
    {front back rest : List Char} {piece : WrittenNode} {pieces : List WrittenNode}
    (hPiece : Takes (pieceWithin depth) p front (back ++ rest) piece)
    (hRest : Takes (Grammar.contentWithin depth) (p.advance front) back rest pieces) :
    Takes (Grammar.contentWithin (depth + 1)) p (front ++ back) rest (piece :: pieces) := by
  rw [contentWithin_succ]
  exact Took.orElse_left (takes_bind hPiece (takes_return hRest _)) _

/-- An angle bracket begins an element only if a name follows. -/
theorem refused_elementWithin {c : Char} {rest : List Char} (depth : Nat) (p : Text.Position)
    (h : c = '<' → EndsHere Grammar.isNameStart rest) :
    Refused (Grammar.elementWithin depth) ⟨c :: rest, p⟩ := by
  cases depth with
  | zero =>
      rw [Grammar.elementWithin]
      exact refused_fail _
  | succ depth =>
      rw [Grammar.elementWithin]
      refine ((took_position _).bind_refused ?_).named _
      by_cases hOpen : c = '<'
      · subst hOpen
        have hTook := took_literal ['<'] rest p
        exact hTook.bind_refused ((refused_name _ (h rfl)).bind _)
      · refine (refused_literal p ?_).bind _
        rw [List.cons_prefix_cons]
        exact fun hPrefix => hOpen hPrefix.1.symm

theorem takes_pieceWithin_element {depth : Nat} {p : Text.Position} {whole rest : List Char}
    {tag : WrittenTag} {pieces : List WrittenNode}
    (h : Takes (Grammar.elementWithin depth) p whole rest (tag, pieces)) :
    Takes (pieceWithin depth) p whole rest (.element tag pieces) :=
  Took.orElse_left (takes_return h _) _

theorem takes_pieceWithin_comment {piece body : List Char} (depth : Nat) (p : Text.Position)
    (rest : List Char) (h : CommentText piece body) :
    Takes (pieceWithin depth) p piece rest (.comment p body) := by
  have hTakes := takes_comment p rest h
  obtain ⟨tail, rfl⟩ := h.begins
  refine Took.orElse_right ((refused_elementWithin depth p ?_).bind _) ?_
  · exact fun _ => endsHere_cons (by decide) _
  · exact hTakes.orElse_left _

theorem takes_pieceWithin_instruction {piece target data : List Char} (depth : Nat)
    (p : Text.Position) (rest : List Char) (h : InstructionText piece target data) :
    ∃ raw, Takes (pieceWithin depth) p piece rest (.instruction p (String.ofList target) raw) ∧
      instructionData raw = String.ofList data := by
  obtain ⟨raw, hTakes, hData⟩ := takes_instruction p rest h
  refine ⟨raw, ?_, hData⟩
  obtain ⟨tail, rfl⟩ := h.begins
  refine Took.orElse_right ((refused_elementWithin depth p ?_).bind _) ?_
  · exact fun _ => endsHere_cons (by decide) _
  refine Took.orElse_right (refused_comment p ?_) ?_
  · simp
  · exact hTakes.orElse_left _

theorem takes_pieceWithin_cdata {piece body : List Char} (depth : Nat) (p : Text.Position)
    (rest : List Char) (h : SectionText piece body) :
    Takes (pieceWithin depth) p piece rest (.cdata p body) := by
  have hTakes := takes_cdata p rest h
  obtain ⟨tail, rfl⟩ := h.begins
  refine Took.orElse_right ((refused_elementWithin depth p ?_).bind _) ?_
  · exact fun _ => endsHere_cons (by decide) _
  refine Took.orElse_right (refused_comment p ?_) ?_
  · simp
  refine Took.orElse_right (refused_instruction p ?_) ?_
  · simp
  · exact hTakes.orElse_left _

theorem takes_pieceWithin_text {run rest : List Char} (depth : Nat) (p : Text.Position)
    (hNe : run ≠ []) (hRun : ∀ c ∈ run, (c != '<') = true) (hEnds : EndsHere (· != '<') rest) :
    Takes (pieceWithin depth) p run rest (.text p run) := by
  have hTakes := takes_text p hNe hRun hEnds
  obtain ⟨c, run, rfl⟩ := List.exists_cons_of_ne_nil hNe
  have hFirst : c ≠ '<' := bne_iff_ne.mp (hRun c List.mem_cons_self)
  have hNot : ∀ stop, ¬ '<' :: stop <+: c :: run ++ rest := by
    intro stop hPrefix
    rw [List.cons_append, List.cons_prefix_cons] at hPrefix
    exact hFirst hPrefix.1.symm
  refine Took.orElse_right ((refused_elementWithin depth p ?_).bind _) ?_
  · exact fun hOpen => absurd hOpen hFirst
  refine Took.orElse_right (refused_comment p (hNot _)) ?_
  refine Took.orElse_right (refused_instruction p (hNot _)) ?_
  exact Took.orElse_right (refused_cdata p (hNot _)) hTakes

/-- **A closing tag is no piece of content.** -/
theorem takes_contentWithin_nil {rest : List Char} (depth : Nat) (p : Text.Position)
    (h : ['<', '/'] <+: rest) : Takes (Grammar.contentWithin depth) p [] rest [] := by
  cases depth with
  | zero =>
      rw [Grammar.contentWithin]
      exact took_pure [] _
  | succ depth =>
      obtain ⟨tail, rfl⟩ := h
      rw [contentWithin_succ]
      refine Took.orElse_right (Refused.bind ?_ _) (took_pure [] _)
      refine Refused.orElse ((refused_elementWithin depth p ?_).bind _) ?_
      · exact fun _ => endsHere_cons (by decide) _
      refine (refused_comment p (by simp)).orElse ?_
      refine (refused_instruction p (by simp)).orElse ?_
      exact (refused_cdata p (by simp)).orElse (refused_text p (endsHere_cons (by decide) _))

theorem line_advance_eq {p : Text.Position} {line : Nat} (h : p.line = line) (text : List Char) :
    (p.advance text).line = lineAfter line text := by
  rw [Text.Position.line_advance, h, lineAfter]

/-- One piece of content, which is dropped or not, and the content behind it. -/
theorem takes_content_cons {front back rest : List Char} {depth : Nat} {p : Text.Position}
    (node : Option Node) {nodes : List Node} (hNe : front ≠ [])
    (hDepth : (front ++ back).length ≤ depth)
    (hPiece : ∀ less, front.length ≤ less + 1 → ∃ piece,
      Takes (pieceWithin less) p front (back ++ rest) piece ∧ piece.read = .ok node)
    (hBack : ∀ less, back.length ≤ less → ∃ written,
      Takes (Grammar.contentWithin less) (p.advance front) back rest written ∧
        WrittenNode.readAll written = .ok nodes) :
    ∃ written, Takes (Grammar.contentWithin depth) p (front ++ back) rest written ∧
      WrittenNode.readAll written = .ok (node.toList ++ nodes) := by
  have hPositive : 0 < front.length := List.length_pos_iff.mpr hNe
  rw [List.length_append] at hDepth
  obtain ⟨less, rfl⟩ : ∃ less, depth = less + 1 := ⟨depth - 1, by omega⟩
  have hFrontLength : front.length ≤ less + 1 := by omega
  have hBackLength : back.length ≤ less := by omega
  obtain ⟨piece, hTakes, hRead⟩ := hPiece less hFrontLength
  obtain ⟨written, hRest, hReadAll⟩ := hBack less hBackLength
  refine ⟨piece :: written, takes_contentWithin_cons hTakes hRest, ?_⟩
  rw [WrittenNode.readAll, hRead, hReadAll]
  cases node <;> rfl

/-- A run of character data is kept unless it is blank. -/
theorem read_text_of_decode {p : Text.Position} {written value : List Char}
    (hDecode : Reference.decode written = .ok value) (hMark : ¬ IsBlank written) :
    (WrittenNode.text p written).read = .ok (some (.text p.line (String.ofList value))) := by
  have hNotAll : written.all Text.isBlank = false := by
    rw [Bool.eq_false_iff]
    exact fun hAll => hMark (List.all_eq_true.mp hAll)
  rw [WrittenNode.read, hNotAll, readText, hDecode]
  rfl

theorem read_text {p : Text.Position} {line : Nat} {written value : List Char}
    (hLine : p.line = line) (hValue : Spells LegalInText written value)
    (hMark : ¬ IsBlank written) :
    (WrittenNode.text p written).read = .ok (some (.text line (String.ofList value))) := by
  have hAmp : ¬ LegalInText '&' := fun hLegal => hLegal.2 rfl
  rw [← hLine, read_text_of_decode (decode_of_spells hAmp hValue) hMark]

theorem endsHere_of_closeTag {rest : List Char} (h : ['<', '/'] <+: rest) :
    EndsHere (· != '<') rest := by
  obtain ⟨tail, rfl⟩ := h
  exact endsHere_cons (by decide) _

/-- **Content is taken, whatever it is made of**, wherever a closing tag follows. -/
theorem takes_content {afterRun : Bool} {line : Nat} {text : List Char} {nodes : List Node}
    (h : ContentText afterRun line text nodes) {depth : Nat} {p : Text.Position}
    (hDepth : text.length ≤ depth) (rest : List Char) (hLine : p.line = line)
    (hRest : ['<', '/'] <+: rest) :
    ∃ written, Takes (Grammar.contentWithin depth) p text rest written ∧
      WrittenNode.readAll written = .ok nodes := by
  induction h generalizing depth p rest with
  | nil => exact ⟨[], takes_contentWithin_nil depth p hRest, by rw [WrittenNode.readAll]⟩
  | @blank line run text nodes hNe hBlank hText ih =>
      have hRun : ∀ c ∈ run, (c != '<') = true := by
        intro c hMem
        rw [bne_iff_ne]
        rintro rfl
        exact absurd (hBlank _ hMem) (by decide)
      refine takes_content_cons none hNe hDepth ?_ ?_
      · intro less _
        refine ⟨_, takes_pieceWithin_text less p hNe hRun (hText.endsHere (endsHere_of_closeTag hRest)), ?_⟩
        rw [WrittenNode.read, if_pos (List.all_eq_true.mpr hBlank)]
      · exact fun less hLess => ih hLess rest (line_advance_eq hLine run) hRest
  | @run line written value text nodes hValue hMark hText ih =>
      have hNe : written ≠ [] := by
        rintro rfl
        exact hMark (fun _ hMem => nomatch hMem)
      refine takes_content_cons (some _) hNe hDepth ?_ ?_
      · intro less _
        refine ⟨_, takes_pieceWithin_text less p hNe (fun c => hValue.ne_of_legalInText)
          (hText.endsHere (endsHere_of_closeTag hRest)), read_text hLine hValue hMark⟩
      · exact fun less hLess => ih hLess rest (line_advance_eq hLine written) hRest
  | @cdata afterRun line piece body text nodes hPiece hText ih =>
      refine takes_content_cons (some _) hPiece.ne_nil hDepth ?_ ?_
      · intro less _
        refine ⟨_, takes_pieceWithin_cdata less p _ hPiece, ?_⟩
        rw [WrittenNode.read, hLine]
      · exact fun less hLess => ih hLess rest (line_advance_eq hLine piece) hRest
  | @comment afterRun line piece body text nodes hPiece hText ih =>
      refine takes_content_cons (some _) hPiece.ne_nil hDepth ?_ ?_
      · intro less _
        refine ⟨_, takes_pieceWithin_comment less p _ hPiece, ?_⟩
        rw [WrittenNode.read, hLine]
      · exact fun less hLess => ih hLess rest (line_advance_eq hLine piece) hRest
  | @instruction afterRun line piece target data text nodes hPiece hText ih =>
      refine takes_content_cons (some _) hPiece.ne_nil hDepth ?_ ?_
      · intro less _
        obtain ⟨raw, hTakes, hData⟩ := takes_pieceWithin_instruction less p (text ++ rest) hPiece
        refine ⟨_, hTakes, ?_⟩
        rw [WrittenNode.read, hLine, hData]
      · exact fun less hLess => ih hLess rest (line_advance_eq hLine piece) hRest
  | @element afterRun line tag name inner behind text attributes content nodes hTag hContent
      hClosing hText ihContent ih =>
      have hTagLength := hTag.two_le_length
      have hInnerLength := hClosing.length_lt
      have hNe : tag ++ behind ≠ [] := by
        intro hNil
        rw [(List.append_eq_nil_iff.mp hNil).1] at hTagLength
        exact absurd hTagLength (by decide)
      refine takes_content_cons (some _) hNe hDepth ?_ ?_
      · intro less hLess
        rw [List.length_append] at hLess
        obtain ⟨less, rfl⟩ : ∃ fewer, less = fewer + 1 := ⟨less - 1, by omega⟩
        have hInner : inner.length ≤ less := by omega
        obtain ⟨written, pieces, hTakes, hReads⟩ := takes_element hTag hClosing
          hContent.eq_nil
          (fun _ tail hInside hTail => ihContent hInner tail hInside hTail) hLine (text ++ rest)
        exact ⟨_, takes_pieceWithin_element hTakes, hReads.read_element⟩
      · exact fun less hLess => ih hLess rest (line_advance_eq hLine (tag ++ behind)) hRest

end LiveMarkup.Markup
