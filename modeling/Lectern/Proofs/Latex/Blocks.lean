import Mathlib.Data.List.Basic
import Lectern.Latex.Body

/-!
# Blocks of slide content

Content lines are rendered one after another with a flag for an open list. Here the same output is
described without a flag: lines that show nothing are left out, what remains is cut into blocks, as
long runs of neighbouring bullets and single other lines, and every block is rendered alone.
`renderLines_byRuns` says that there is one such cut and that its blocks, rendered in order, are the
output, behind whatever was written before.
-/

namespace Lectern.Latex

/-- What a content line shows. -/
inductive Shown where
  | bullet (text : Text)
  | code
  | image (source : Text)
  | plain (line : Text)

/-- What a line shows. Column markers, buttons and images without a path show nothing. -/
def Shown.ofLine? (line : Text) : Option Shown :=
  match BodyLine.classify line with
  | .column _ | .button | .image none => none
  | .code => some .code
  | .image (some source) => some (.image source)
  | .bullet text => some (.bullet text)
  | .plain => some (.plain line)

/-- What is rendered as one: a list of at least one bullet, or a line that is no bullet. -/
inductive Block where
  | list (first : Text) (more : List Text)
  | code
  | image (source : Text)
  | plain (line : Text)

namespace Block

/-- What the lines of a block show. -/
def parts : Block → List Shown
  | list first more => (first :: more).map .bullet
  | code => [.code]
  | image source => [.image source]
  | plain line => [.plain line]

/-- Whether a block is a list. -/
def isList : Block → Bool
  | list .. => true
  | _ => false

/-- A cut of what lines show into blocks, with the runs of bullets as long as they can be. -/
structure Cuts (blocks : List Block) (shown : List Shown) : Prop where
  whole : blocks.flatMap parts = shown
  maximal : blocks.IsChain fun block next => ¬ (block.isList ∧ next.isList)

/-- The item of a bullet. -/
def itemLine (indent text : Text) : Text := indent ++ "  \\item " ++ formatInline text

/-- The output for a block. -/
def render (indent : Text) : Block → List Text
  | list first more =>
    [indent ++ opening "itemize"] ++ (first :: more).map (itemLine indent)
      ++ [indent ++ closing "itemize"]
  | code => codePlaceholder indent
  | image source => imageBlock indent source
  | plain line =>
    if Text.isBlankText (formatInline line) then [indent ++ command "vspace" "1em"]
    else [indent ++ formatInline line]

/-! ## The cut -/

/-- Blocks with one more line in front; a bullet joins a list that it stands in front of. -/
def push : Shown → List Block → List Block
  | .bullet text, list first more :: rest => list text (first :: more) :: rest
  | .bullet text, rest => list text [] :: rest
  | .code, rest => code :: rest
  | .image source, rest => image source :: rest
  | .plain line, rest => plain line :: rest

/-- The blocks of what lines show. -/
def ofShown (shown : List Shown) : List Block := shown.foldr push []

/-- Whether the first block is a list. -/
def startsWithList (blocks : List Block) : Bool := blocks.head?.any isList

/-- Blocks that start with a list, or that a bullet goes in front of. -/
theorem list_or_push_bullet (text : Text) (blocks : List Block) :
    (∃ first more rest, blocks = list first more :: rest) ∨
      startsWithList blocks = false ∧ push (.bullet text) blocks = list text [] :: blocks := by
  cases blocks with
  | nil => exact .inr ⟨rfl, rfl⟩
  | cons block rest =>
    cases block with
    | list first more => exact .inl ⟨first, more, rest, rfl⟩
    | code => exact .inr ⟨rfl, rfl⟩
    | image source => exact .inr ⟨rfl, rfl⟩
    | plain line => exact .inr ⟨rfl, rfl⟩

theorem isChain_cons_iff {block : Block} {blocks : List Block} :
    (block :: blocks).IsChain (fun block next => ¬ (block.isList ∧ next.isList)) ↔
      ¬ (block.isList ∧ startsWithList blocks) ∧
        blocks.IsChain fun block next => ¬ (block.isList ∧ next.isList) := by
  cases blocks with
  | nil => simp [startsWithList]
  | cons next rest => simp [startsWithList, List.isChain_cons_cons]

theorem Cuts.cons {block : Block} {blocks : List Block} {rest : List Shown}
    (cuts : Cuts blocks rest) (apart : ¬ (block.isList ∧ startsWithList blocks)) :
    Cuts (block :: blocks) (block.parts ++ rest) := by
  obtain ⟨rfl, maximal⟩ := cuts
  exact ⟨List.flatMap_cons, isChain_cons_iff.mpr ⟨apart, maximal⟩⟩

/-- One more line in front is shown in front, and splits no run. -/
theorem Cuts.push {blocks : List Block} {rest : List Shown} (cuts : Cuts blocks rest)
    (shown : Shown) : Cuts (push shown blocks) (shown :: rest) := by
  cases shown with
  | bullet text =>
    rcases list_or_push_bullet text blocks with ⟨first, more, blocks, rfl⟩ | ⟨apart, pushed⟩
    · obtain ⟨rfl, maximal⟩ := cuts
      obtain ⟨apart, behind⟩ := isChain_cons_iff.mp maximal
      exact ⟨rfl, isChain_cons_iff.mpr ⟨apart, behind⟩⟩
    · rw [pushed]
      exact cuts.cons (by simp [apart])
  | code => exact cuts.cons (by simp [isList])
  | image source => exact cuts.cons (by simp [isList])
  | plain line => exact cuts.cons (by simp [isList])

theorem cuts_ofShown (shown : List Shown) : Cuts (ofShown shown) shown := by
  induction shown with
  | nil => exact ⟨rfl, .nil⟩
  | cons first rest ih => exact ih.push first

/-- Bullets in front of anything but a list are one block. -/
theorem ofShown_bullets {rest : List Shown} (apart : startsWithList (ofShown rest) = false)
    (first : Text) (more : List Text) :
    ofShown ((list first more).parts ++ rest) = list first more :: ofShown rest := by
  induction more generalizing first with
  | nil =>
    rcases list_or_push_bullet first (ofShown rest) with ⟨second, more, behind, same⟩ | ⟨-, pushed⟩
    · rw [same] at apart
      cases apart
    · exact pushed
  | cons second more ih =>
    have behind : ofShown ((list first (second :: more)).parts ++ rest) =
        push (.bullet first) (ofShown ((list second more).parts ++ rest)) := rfl
    rw [behind, ih second]
    rfl

/-- There is no other cut. -/
theorem Cuts.eq_ofShown {blocks : List Block} {shown : List Shown} (cuts : Cuts blocks shown) :
    blocks = ofShown shown := by
  obtain ⟨rfl, maximal⟩ := cuts
  induction blocks with
  | nil => rfl
  | cons block blocks ih =>
    obtain ⟨apart, behind⟩ := isChain_cons_iff.mp maximal
    have same := ih behind
    rw [List.flatMap_cons]
    cases block with
    | list first more =>
      have noList : startsWithList (ofShown (blocks.flatMap parts)) = false := by
        rw [← same]
        simpa [isList] using apart
      rw [ofShown_bullets noList, ← same]
    | code => exact congrArg (code :: ·) same
    | image source => exact congrArg (image source :: ·) same
    | plain line => exact congrArg (plain line :: ·) same

theorem cuts_iff {blocks : List Block} {shown : List Shown} :
    Cuts blocks shown ↔ blocks = ofShown shown := by
  constructor
  · exact Cuts.eq_ofShown
  · rintro rfl
    exact cuts_ofShown shown

/-! ## Output -/

/-- What blocks add to the output in a list state. In an open list the items of a list that comes
first go on, and anything else closes it. -/
def outputFrom (indent : Text) : ListState → List Block → List Text
  | .inside, list first more :: rest =>
    (first :: more).map (itemLine indent) ++ [indent ++ closing "itemize"]
      ++ rest.flatMap (render indent)
  | state, blocks => closeList indent state ++ blocks.flatMap (render indent)

variable (indent : Text)

theorem outputFrom_outside (blocks : List Block) :
    outputFrom indent .outside blocks = blocks.flatMap (render indent) := rfl

/-- Blocks that do not start with a list close an open one. -/
theorem outputFrom_eq {blocks : List Block} (apart : startsWithList blocks = false)
    (state : ListState) :
    outputFrom indent state blocks = closeList indent state ++ blocks.flatMap (render indent) := by
  cases state with
  | outside => rfl
  | inside =>
    rw [outputFrom]
    rintro first more rest - rfl
    cases apart

/-- A block that is no list closes an open one. -/
theorem outputFrom_cons (block : Block) (noList : block.isList = false) (state : ListState)
    (blocks : List Block) :
    outputFrom indent state (block :: blocks) =
      closeList indent state ++ render indent block ++ blocks.flatMap (render indent) := by
  rw [outputFrom_eq indent (by simp [startsWithList, noList]), List.flatMap_cons, List.append_assoc]

/-- A bullet opens a list unless one is open, and joins the list behind it. -/
theorem outputFrom_bullet (text : Text) (state : ListState) (blocks : List Block) :
    outputFrom indent state (push (.bullet text) blocks) =
      openList indent state ++ [itemLine indent text] ++ outputFrom indent .inside blocks := by
  rcases list_or_push_bullet text blocks with ⟨first, more, blocks, rfl⟩ | ⟨apart, pushed⟩
  · cases state <;> simp [push, outputFrom, openList, closeList, render]
  · rw [pushed, outputFrom_eq indent apart]
    cases state <;> simp [outputFrom, openList, closeList, render]

/-- The blocks behind one more line in front. -/
def pushLine (line : Text) (blocks : List Block) : List Block :=
  (Shown.ofLine? line).elim blocks fun shown => push shown blocks

theorem ofShown_filterMap_cons (line : Text) (lines : List Text) :
    ofShown ((line :: lines).filterMap Shown.ofLine?) =
      pushLine line (ofShown (lines.filterMap Shown.ofLine?)) := by
  rw [List.filterMap_cons, pushLine]
  cases Shown.ofLine? line <;> rfl

/-- One line adds what it puts in front of the blocks behind it. -/
theorem renderLine_append_outputFrom (state : ListState) (line : Text) (blocks : List Block) :
    (renderLine indent state line).2
        ++ outputFrom indent (renderLine indent state line).1 blocks =
      outputFrom indent state (pushLine line blocks) := by
  rw [renderLine, pushLine, Shown.ofLine?]
  cases BodyLine.classify line with
  | column width => rfl
  | button => rfl
  | code => exact (outputFrom_cons indent code rfl state blocks).symm
  | image source =>
    cases source with
    | none => rfl
    | some path => exact (outputFrom_cons indent (image path) rfl state blocks).symm
  | bullet text => exact (outputFrom_bullet indent text state blocks).symm
  | plain =>
    have shown : [plainLine indent line] = render indent (plain line) := by
      rw [plainLine, render]
      split <;> rfl
    have output := outputFrom_cons indent (plain line) rfl state blocks
    rw [← shown] at output
    exact output.symm

/-- The state machine renders the blocks of its lines, from every state on. -/
theorem renderLinesFrom_eq (state : ListState) (lines : List Text) :
    renderLinesFrom indent state lines =
      outputFrom indent state (ofShown (lines.filterMap Shown.ofLine?)) := by
  induction lines generalizing state with
  | nil => cases state <;> rfl
  | cons line lines ih =>
    rw [renderLinesFrom, ih, renderLine_append_outputFrom, ofShown_filterMap_cons]

end Block

/-! ## Pages -/

/-- Output under way: the lines written so far, and whether a list is open. -/
structure Page where
  written : List Text
  state : ListState

namespace Page

/-- The page behind a content line. -/
def feed (indent : Text) (page : Page) (line : Text) : Page :=
  ⟨page.written ++ (renderLine indent page.state line).2, (renderLine indent page.state line).1⟩

/-- The lines of a page when its content ends; an open list is closed. -/
def finish (indent : Text) (page : Page) : List Text :=
  page.written ++ closeList indent page.state

/-- What is written stays, and the output for the lines is added to it. -/
theorem finish_foldl_feed (indent : Text) (page : Page) (lines : List Text) :
    (lines.foldl (feed indent) page).finish indent =
      page.written ++ renderLinesFrom indent page.state lines := by
  induction lines generalizing page with
  | nil => rfl
  | cons line lines ih =>
    rw [List.foldl_cons, ih, feed, renderLinesFrom, List.append_assoc]

end Page

/-- Content lines render to their blocks: what they show is cut in one way into runs of bullets, as
long as they can be, and single other lines, and the rendered blocks are the output. Fed line by
line to a page, they leave what is written in place and add this output. -/
theorem renderLines_byRuns (indent : Text) (lines : List Text) :
    ∃ blocks : List Block,
      (∀ cut, Block.Cuts cut (lines.filterMap Shown.ofLine?) ↔ cut = blocks) ∧
      renderLines indent lines = blocks.flatMap (Block.render indent) ∧
      ∀ written : List Text,
        (lines.foldl (Page.feed indent) ⟨written, .outside⟩).finish indent =
          written ++ blocks.flatMap (Block.render indent) := by
  have rendered := Block.renderLinesFrom_eq indent .outside lines
  rw [Block.outputFrom_outside] at rendered
  refine ⟨Block.ofShown (lines.filterMap Shown.ofLine?), fun cut => Block.cuts_iff, rendered, ?_⟩
  intro written
  rw [Page.finish_foldl_feed, rendered]

end Lectern.Latex
