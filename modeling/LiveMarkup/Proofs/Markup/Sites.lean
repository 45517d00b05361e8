import LiveMarkup.Proofs.Markup.Along
import LiveMarkup.Proofs.Markup.Equality
import Mathlib.Data.List.Forall2

/-!
# On which lines nodes are

Every node is read from one piece of the source. The site of the piece is the text in
front of it, all of it from the beginning of the source on, and the line of the node is
the line behind that text: whatever stands there, tags over several lines, comments,
sections or a declaration, only its line feeds count.

Sites are found in the verbatim tree of the source, which knows nothing of lines. A run
of white space has none, as there is no node for it.

## Main results

* `stands_of_read` — the nodes that are read of a piece are those of its sites, one by
  one.
* `exists_of_mem_sites` — a piece stands in the source behind the text of its site.
* `Document.line_of_read` — **every node is on the line of its first character**.
-/

namespace LiveMarkup.Markup

open Text (Position)

/-! ## Sites -/

/-- A piece of markup, with the text in front of it. -/
structure Site where
  front : List Char
  piece : Verbatim

namespace Verbatim

mutual

/-- The pieces that there are nodes for, in document order: the piece itself, which
stands behind the given text, and those in its content. -/
def sites (front : List Char) : Verbatim → List Site
  | single tag => [⟨front, single tag⟩]
  | element tag content close =>
    ⟨front, element tag content close⟩ :: sitesAll (front ++ opening tag) content
  | run raw hNe hRaw => if IsBlank raw then [] else [⟨front, run raw hNe hRaw⟩]
  | cdata body hBody => [⟨front, cdata body hBody⟩]
  | comment body hBody => [⟨front, comment body hBody⟩]
  | instruction target data hTarget hEnds hData =>
    [⟨front, instruction target data hTarget hEnds hData⟩]

/-- The pieces that there are nodes for in a row, the first of which stands behind the
given text. -/
def sitesAll (front : List Char) : List Verbatim → List Site
  | [] => []
  | piece :: rest => piece.sites front ++ sitesAll (front ++ piece.text) rest

end

/-- The node says what the piece says. Lines are left aside, and so is content, as its
pieces have nodes of their own. -/
def IsReadAs : Verbatim → Node → Prop
  | single tag, .element read content => read.name = String.ofList tag.name ∧ content = []
  | element tag _ _, .element read _ => read.name = String.ofList tag.name
  | run raw _ _, .text _ value => Reference.decode raw = .ok value.toList
  | cdata body _, .text _ value => value = String.ofList body
  | comment body _, .comment _ value => value = String.ofList body
  | instruction target data _ _ _, .instruction _ name value =>
    name = String.ofList target ∧ value = instructionData data
  | _, _ => False

mutual

theorem exists_of_mem_sites : (piece : Verbatim) → (front : List Char) →
    ∀ site ∈ piece.sites front,
      ∃ back, front ++ piece.text = site.front ++ (site.piece.text ++ back)
  | single tag, front => by
      intro site hMem
      obtain rfl := List.mem_singleton.mp hMem
      exact ⟨[], by rw [List.append_nil]⟩
  | element tag content close, front => by
      intro site hMem
      rw [sites, List.mem_cons] at hMem
      rcases hMem with rfl | hMem
      · exact ⟨[], by rw [List.append_nil]⟩
      · obtain ⟨back, hBack⟩ := exists_of_mem_sitesAll content (front ++ opening tag) site hMem
        refine ⟨back ++ close.text, ?_⟩
        rw [text_element, ← List.append_assoc, ← List.append_assoc, hBack]
        simp only [List.append_assoc]
  | run raw hNe hRaw, front => by
      intro site hMem
      rw [sites] at hMem
      split at hMem
      · cases hMem
      · obtain rfl := List.mem_singleton.mp hMem
        exact ⟨[], by rw [List.append_nil]⟩
  | cdata body hBody, front => by
      intro site hMem
      obtain rfl := List.mem_singleton.mp hMem
      exact ⟨[], by rw [List.append_nil]⟩
  | comment body hBody, front => by
      intro site hMem
      obtain rfl := List.mem_singleton.mp hMem
      exact ⟨[], by rw [List.append_nil]⟩
  | instruction target data hTarget hEnds hData, front => by
      intro site hMem
      obtain rfl := List.mem_singleton.mp hMem
      exact ⟨[], by rw [List.append_nil]⟩

theorem exists_of_mem_sitesAll : (pieces : List Verbatim) → (front : List Char) →
    ∀ site ∈ sitesAll front pieces,
      ∃ back, front ++ textAll pieces = site.front ++ (site.piece.text ++ back)
  | [], _ => fun _ hMem => nomatch hMem
  | piece :: rest, front => by
      intro site hMem
      rw [sitesAll, List.mem_append] at hMem
      rw [textAll, ← List.append_assoc]
      rcases hMem with hMem | hMem
      · obtain ⟨back, hBack⟩ := exists_of_mem_sites piece front site hMem
        exact ⟨back ++ textAll rest, by rw [hBack]; simp only [List.append_assoc]⟩
      · exact exists_of_mem_sitesAll rest (front ++ piece.text) site hMem

end

/-! ## What is read -/

/-- The node is what is read of the piece of the site, and on the line behind the text in
front of it. -/
def Stands (node : Node) (site : Site) : Prop :=
  site.piece.IsReadAs node ∧ node.line = lineAfter 1 site.front

theorem line_advance_front {front : List Char} {p : Position} (h : p.line = lineAfter 1 front)
    (text : List Char) : (p.advance text).line = lineAfter 1 (front ++ text) := by
  rw [line_advance_eq h, lineAfter, lineAfter, lineAfter, List.count_append, Nat.add_assoc]

theorem decode_of_readText {start : Position} {raw : List Char} {value : String}
    (h : readText start raw = .ok value) : Reference.decode raw = .ok value.toList := by
  rw [readText] at h
  split at h
  · rename_i text hDecode
    cases h
    rw [hDecode, String.toList_ofList]
  · cases h

mutual

/-- **The nodes that are read of a piece are those of its sites**, one by one. -/
theorem stands_of_read : (piece : Verbatim) → {front : List Char} → {p : Position} →
    p.line = lineAfter 1 front → {found : Option Node} → (piece.written p).read = .ok found →
    List.Forall₂ Stands ((found.map Node.inOrder).getD []) (piece.sites front)
  | single tag, front, p, hLine, found, h => by
      obtain ⟨read, content, hReads, rfl⟩ := reads_of_read_element h
      have hContent : content = [] := (Except.ok.inj hReads.content).symm
      subst hContent
      exact .cons ⟨⟨hReads.name.symm, rfl⟩, hReads.line.symm.trans hLine⟩ .nil
  | element tag content close, front, p, hLine, found, h => by
      rw [written] at h
      obtain ⟨read, nodes, hReads, rfl⟩ := reads_of_read_element h
      refine .cons ⟨hReads.name.symm, hReads.line.symm.trans hLine⟩ ?_
      exact stands_of_readAll content (line_advance_front hLine _) hReads.content
  | run raw hNe hRaw, front, p, hLine, found, h => by
      rw [written, WrittenNode.read] at h
      rw [sites]
      by_cases hBlank : IsBlank raw
      · rw [if_pos (List.all_eq_true.mpr hBlank)] at h
        cases h
        rw [if_pos hBlank]
        exact .nil
      · rw [if_neg fun hAll => hBlank (List.all_eq_true.mp hAll)] at h
        obtain ⟨value, hValue, h⟩ := exists_of_bind_ok h
        cases h
        rw [if_neg hBlank]
        exact .cons ⟨decode_of_readText hValue, hLine⟩ .nil
  | cdata body hBody, front, p, hLine, found, h => by
      rw [written, WrittenNode.read] at h
      cases h
      exact .cons ⟨rfl, hLine⟩ .nil
  | comment body hBody, front, p, hLine, found, h => by
      rw [written, WrittenNode.read] at h
      cases h
      exact .cons ⟨rfl, hLine⟩ .nil
  | instruction target data hTarget hEnds hData, front, p, hLine, found, h => by
      rw [written, WrittenNode.read] at h
      cases h
      exact .cons ⟨⟨rfl, rfl⟩, hLine⟩ .nil

theorem stands_of_readAll : (pieces : List Verbatim) → {front : List Char} → {p : Position} →
    p.line = lineAfter 1 front → {nodes : List Node} →
    WrittenNode.readAll (writtenAll p pieces) = .ok nodes →
    List.Forall₂ Stands (Node.inOrderAll nodes) (sitesAll front pieces)
  | [], front, p, hLine, nodes, h => by
      rw [writtenAll, WrittenNode.readAll] at h
      cases h
      exact .nil
  | piece :: rest, front, p, hLine, nodes, h => by
      rw [writtenAll] at h
      obtain ⟨found, others, hPiece, hRest, rfl⟩ := readAll_cons h
      rw [Node.inOrderAll_toList_append, sitesAll]
      refine List.rel_append (stands_of_read piece hLine hPiece) ?_
      exact stands_of_readAll rest (line_advance_front hLine _) hRest

end

end Verbatim

/-! ## The whole source -/

namespace VerbatimDocument

/-- The pieces that there are nodes for, behind the text of the source in front of each. -/
def sites (document : VerbatimDocument) : List Site :=
  document.root.sites (document.mark ++ document.opening)

/-- The pieces stand in the source where they are said to. -/
theorem exists_of_mem_sites {document : VerbatimDocument} {site : Site}
    (h : site ∈ document.sites) :
    ∃ back, document.text = site.front ++ (site.piece.text ++ back) := by
  obtain ⟨back, hBack⟩ := Verbatim.exists_of_mem_sites _ _ site h
  refine ⟨back ++ document.back, ?_⟩
  rw [text, behindMark, ← List.append_assoc, ← List.append_assoc, hBack]
  simp only [List.append_assoc]

theorem line_advance_opening (document : VerbatimDocument) :
    (Position.start.advance document.opening).line =
      lineAfter 1 (document.mark ++ document.opening) := by
  rw [document.lineAfter_mark]
  exact line_advance_eq rfl document.opening

end VerbatimDocument

/--
**Every node is on the line of its first character.** The source of a document can be
taken apart to the character, in a way that gives one piece for each node, in document
order. The node is what is read of its piece, and its line is one more than there are
line feeds in front of the piece. So lines do not decrease in document order.
-/
theorem Document.line_of_read {source : String} {document : Document}
    (h : Document.read source = .ok document) :
    ∃ verbatim : VerbatimDocument, verbatim.text = source.toList ∧
      List.Forall₂ (fun node site => site.piece.IsReadAs node ∧
          (∃ back, source.toList = site.front ++ (site.piece.text ++ back)) ∧
          node.line = 1 + site.front.count '\n')
        document.rootNode.inOrder verbatim.sites ∧
      document.rootNode.inOrder.Pairwise fun a b => a.line ≤ b.line := by
  obtain ⟨verbatim, hText, -, hRoot⟩ := exists_verbatim_of_read h
  have hSites := List.forall₂_iff_zip.mp
    (verbatim.root.stands_of_read verbatim.line_advance_opening hRoot)
  refine ⟨verbatim, hText, ?_, (along_document h).pairwise⟩
  refine List.forall₂_iff_zip.mpr ⟨hSites.1, fun {node site} hMem => ?_⟩
  obtain ⟨hIs, hLine⟩ := hSites.2 hMem
  exact ⟨hIs, hText ▸ verbatim.exists_of_mem_sites (List.of_mem_zip hMem).2, hLine⟩

/-- A mark, a comment, a tag, a run and a section, most of them over several lines. -/
theorem Document.line_of_read_lines :
    ∃ document,
      Document.read "\ufeff<!--\n--><a\nb='1\n2'>\nt<![CDATA[\n]]><c\n/></a>" = .ok document ∧
      document.rootNode.inOrder.map Node.line = [2, 4, 5, 6] ∧
      ∃ verbatim : VerbatimDocument,
        List.Forall₂ (fun node site => node.line = 1 + site.front.count '\n')
          document.rootNode.inOrder verbatim.sites := by
  have hRead : Document.read "\ufeff<!--\n--><a\nb='1\n2'>\nt<![CDATA[\n]]><c\n/></a>" =
      .ok ⟨[], ⟨"a", [⟨"b", "1\n2"⟩], 2⟩,
        [.text 4 "\nt", .text 5 "\n", .element ⟨"c", [], 6⟩ []]⟩ := by decide +kernel
  obtain ⟨verbatim, -, hSites, -⟩ := Document.line_of_read hRead
  exact ⟨_, hRead, rfl, verbatim, hSites.imp fun _ _ h => h.2.2⟩

end LiveMarkup.Markup
