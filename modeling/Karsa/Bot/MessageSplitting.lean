import Karsa.Foundations.Nesting
import Karsa.Foundations.Text

/-!
# Bot - Splitting long messages

Telegram takes four thousand characters at a time.  `_split_html_safe` cuts a longer text between
its lines, closes the tags that are open at a cut and opens them again behind it.

Main results:

- Theorem `pieces`: what the chunks are made of, and which of them keep the limit.
- Theorem `blockquote_never_open`: a block quote is never among the open tags.
- Theorem `chunks_nested`: the chunks of a well nested text are well nested.
- Theorem `sendLongMessage_shows`: what the chat shows of a long text.
-/

namespace Karsa
namespace MessageSplitting

/-! ## Tags -/

/-- The names in `tag_pattern`. -/
inductive Name where
  | pre
  | b
  | i
  | code
  | u
  | s
  | a
  | blockquote
  | tgSpoiler
deriving Repr, DecidableEq

/-- The name as it is written. -/
def Name.word : Name → Text
  | .pre => ['p', 'r', 'e']
  | .b => ['b']
  | .i => ['i']
  | .code => ['c', 'o', 'd', 'e']
  | .u => ['u']
  | .s => ['s']
  | .a => ['a']
  | .blockquote => ['b', 'l', 'o', 'c', 'k', 'q', 'u', 'o', 't', 'e']
  | .tgSpoiler => ['t', 'g', '-', 's', 'p', 'o', 'i', 'l', 'e', 'r']

/-- The alternatives of `tag_pattern`, in its order. -/
def alternatives : List Name :=
  [.pre, .b, .i, .code, .u, .s, .a, .blockquote, .tgSpoiler]

/-- What `tag_pattern` finds behind a `<`: the first alternative that fits, if a `>` follows. -/
def tagAt (cs : Text) : Option (Mark Name) :=
  match cs with
  | '/' :: rest =>
      if '>' ∈ rest then
        (alternatives.find? fun n => n.word.isPrefixOf rest).map Mark.closing
      else none
  | _ =>
      if '>' ∈ cs then (alternatives.find? fun n => n.word.isPrefixOf cs).map Mark.opening
      else none

/-- `tag_pattern.finditer(line)`; the flag says that the scan is inside a tag that was found. -/
def scan : Bool → Text → List (Mark Name)
  | _, [] => []
  | true, c :: cs => if c = '>' then scan false cs else scan true cs
  | false, c :: cs =>
      if c = '<' then
        match tagAt cs with
        | some mark => mark :: scan true cs
        | none => scan false cs
      else scan false cs

/-- The name of a mark. -/
def nameOf : Mark Name → Name
  | .opening n => n
  | .closing n => n

/-- The loop over the tags of a line; links are not tracked. -/
def trackLine (openTags : List Name) (line : Text) : List Name :=
  (scan false line).foldl
    (fun openTags mark => if nameOf mark = .a then openTags else Mark.track openTags mark) openTags

/-! ## The splitter -/

/-- `"\n".join(lines)`. -/
def joinLines (lines : List Text) : Text :=
  List.intercalate ['\n'] lines

/-- `f"<{tag}>"`. -/
def openTag (n : Name) : Text :=
  '<' :: n.word ++ ['>']

/-- `f"</{tag}>"`. -/
def closeTag (n : Name) : Text :=
  '<' :: '/' :: n.word ++ ['>']

/-- `chunks`, `current_chunk`, `current_len` and `open_tags`. -/
structure Splitter where
  chunks : List Text
  currentChunk : List Text
  currentLen : ℕ
  openTags : List Name
deriving Repr, DecidableEq

/-- The loop body of `_split_html_safe`. -/
def Splitter.addLine (limit : ℕ) (s : Splitter) (line : Text) : Splitter :=
  let added :=
    if limit < s.currentLen + line.length + 1 ∧ s.currentChunk ≠ [] then
      let closing := s.openTags.reverse.flatMap closeTag
      let reopening := s.openTags.flatMap openTag
      { s with
        chunks := s.chunks ++ [joinLines s.currentChunk ++ closing]
        currentChunk := [reopening ++ line]
        currentLen := (reopening ++ line).length }
    else
      { s with
        currentChunk := s.currentChunk ++ [line]
        currentLen := s.currentLen + line.length + 1 }
  { added with openTags := trackLine s.openTags line }

/-- `_split_html_safe`. -/
def splitHtmlSafe (text : Text) (limit : ℕ) : List Text :=
  let s := (text.splitOn '\n').foldl (Splitter.addLine limit) ⟨[], [], 0, []⟩
  if s.currentChunk ≠ [] then s.chunks ++ [joinLines s.currentChunk] else s.chunks

/-! ## The pieces -/

/-- The open tags behind some lines. -/
def openAfter (lines : List Text) : List Name :=
  lines.foldl trackLine []

theorem openAfter_concat (lines : List Text) (line : Text) :
    openAfter (lines ++ [line]) = trackLine (openAfter lines) line := by
  rw [openAfter, List.foldl_append, List.foldl_cons, List.foldl_nil, openAfter]

/-- Some lines of the text under the tags that are open before them. -/
def piece (before body : List Text) : Text :=
  (openAfter before).flatMap openTag ++ joinLines body

/-- The same with the tags closed that are open behind them. -/
def closedPiece (before body : List Text) : Text :=
  piece before body ++ (openAfter (before ++ body)).reverse.flatMap closeTag

/-- Successive closed pieces. -/
def closedPieces : List Text → List (List Text) → List Text
  | _, [] => []
  | before, body :: rest => closedPiece before body :: closedPieces (before ++ body) rest

theorem closedPieces_concat (before : List Text) (bodies : List (List Text)) (body : List Text) :
    closedPieces before (bodies ++ [body]) =
      closedPieces before bodies ++ [closedPiece (before ++ bodies.flatten) body] := by
  induction bodies generalizing before with
  | nil => simp [closedPieces]
  | cons first rest ih =>
      rw [List.cons_append, closedPieces, ih, closedPieces, List.flatten_cons, List.append_assoc,
        List.cons_append]

/-- Every piece of more than one line keeps the limit, but for the tags that close it. -/
def Fits (limit : ℕ) : List Text → List (List Text) → Prop
  | _, [] => True
  | before, body :: rest =>
      (2 ≤ body.length → (piece before body).length ≤ limit) ∧ Fits limit (before ++ body) rest

theorem fits_concat {limit : ℕ} {before : List Text} {bodies : List (List Text)}
    {body : List Text} :
    Fits limit before (bodies ++ [body]) ↔
      Fits limit before bodies ∧
        (2 ≤ body.length → (piece (before ++ bodies.flatten) body).length ≤ limit) := by
  induction bodies generalizing before with
  | nil => simp [Fits]
  | cons first rest ih =>
      rw [List.cons_append, Fits, Fits, ih, List.flatten_cons, List.append_assoc, and_assoc]

@[simp] theorem joinLines_singleton (line : Text) : joinLines [line] = line :=
  List.intercalate_singleton

theorem joinLines_cons {line : Text} {rest : List Text} (hrest : rest ≠ []) :
    joinLines (line :: rest) = line ++ '\n' :: joinLines rest := by
  rw [joinLines, List.intercalate_cons_of_ne_nil hrest, List.append_assoc, List.singleton_append,
    joinLines]

/-- Joined lines in two parts. -/
theorem joinLines_append {front back : List Text} (hfront : front ≠ []) (hback : back ≠ []) :
    joinLines (front ++ back) = joinLines front ++ '\n' :: joinLines back := by
  induction front with
  | nil => exact absurd rfl hfront
  | cons line rest ih =>
      rw [List.cons_append]
      cases rest with
      | nil => rw [List.nil_append, joinLines_cons hback, joinLines_singleton]
      | cons next rest =>
          rw [joinLines_cons (by simp), ih (List.cons_ne_nil next rest),
            joinLines_cons (List.cons_ne_nil next rest), List.append_assoc, List.cons_append]

/-- The text of the pieces is the text. -/
theorem joinLines_pieces {bodies : List (List Text)} (hne : ∀ body ∈ bodies, body ≠ []) :
    joinLines (bodies.map joinLines) = joinLines bodies.flatten := by
  induction bodies with
  | nil => rfl
  | cons body rest ih =>
      have hrest := ih fun b hb => hne b (List.mem_cons_of_mem body hb)
      cases rest with
      | nil => simp
      | cons next rest =>
          have hnext : (next :: rest).flatten ≠ [] := by
            intro hnil
            exact hne next (by simp) (List.flatten_eq_nil_iff.mp hnil next List.mem_cons_self)
          rw [List.map_cons, joinLines_cons (by simp), hrest,
            ← joinLines_append (hne body List.mem_cons_self) hnext]
          rfl

/-! ## The run over the lines -/

/-- Some lines with the tags in front that are open before them. -/
def underTags (before : List Text) : List Text → List Text
  | [] => []
  | first :: rest => ((openAfter before).flatMap openTag ++ first) :: rest

/-- What the splitter holds behind some lines: the bodies of its finished chunks, and the lines of
the chunk that it is at. -/
structure Holds (limit : ℕ) (lines : List Text) (bodies : List (List Text)) (body : List Text)
    (s : Splitter) : Prop where
  lines_eq : bodies.flatten ++ body = lines
  nonempty : ∀ b ∈ bodies, b ≠ []
  chunks : s.chunks = closedPieces [] bodies
  currentChunk : s.currentChunk = underTags bodies.flatten body
  started : body = [] → bodies = []
  openTags : s.openTags = openAfter lines
  fits : Fits limit [] bodies
  long : body ≠ [] → (joinLines s.currentChunk).length ≤ s.currentLen
  short : 2 ≤ body.length → s.currentLen ≤ limit

/-- The chunk that the splitter is at. -/
theorem Holds.joinLines_currentChunk {limit : ℕ} {lines : List Text} {bodies : List (List Text)}
    {body : List Text} {s : Splitter} (h : Holds limit lines bodies body s) (hbody : body ≠ []) :
    joinLines s.currentChunk = piece bodies.flatten body := by
  rw [h.currentChunk, piece]
  cases body with
  | nil => exact absurd rfl hbody
  | cons first rest =>
      rw [underTags]
      cases rest with
      | nil => simp
      | cons next rest =>
          rw [joinLines_cons (List.cons_ne_nil next rest),
            joinLines_cons (List.cons_ne_nil next rest), List.append_assoc]

/-- One more line goes to the chunk that the splitter is at, or starts another one. -/
theorem Holds.addLine {limit : ℕ} {lines : List Text} {bodies : List (List Text)}
    {body : List Text} {s : Splitter} (h : Holds limit lines bodies body s) (line : Text) :
    ∃ bodies' body', body' ≠ [] ∧
      Holds limit (lines ++ [line]) bodies' body' (s.addLine limit line) := by
  have hempty : s.currentChunk = [] ↔ body = [] := by
    rw [h.currentChunk]
    cases body with
    | nil => simp [underTags]
    | cons first rest => simp [underTags]
  have hopen : trackLine s.openTags line = openAfter (lines ++ [line]) := by
    rw [openAfter_concat, h.openTags]
  unfold Splitter.addLine
  dsimp only
  split_ifs with hcut
  · have hbody : body ≠ [] := fun hnil => hcut.2 (hempty.mpr hnil)
    have hflat : (bodies ++ [body]).flatten = lines := by
      rw [List.flatten_append, List.flatten_singleton, h.lines_eq]
    refine ⟨bodies ++ [body], [line], List.cons_ne_nil _ _, ?_, ?_, ?_, ?_, ?_, hopen, ?_, ?_, ?_⟩
    · rw [hflat]
    · intro b hb
      rcases List.mem_append.mp hb with hold | hnew
      · exact h.nonempty b hold
      · rwa [List.mem_singleton.mp hnew]
    · rw [closedPieces_concat, ← h.chunks, h.joinLines_currentChunk hbody, h.openTags, closedPiece,
        List.nil_append, h.lines_eq]
    · dsimp only
      rw [hflat, h.openTags, underTags]
    · intro hnil
      cases hnil
    · refine fits_concat.mpr ⟨h.fits, fun hlong => ?_⟩
      rw [List.nil_append, ← h.joinLines_currentChunk hbody]
      exact (h.long hbody).trans (h.short hlong)
    · intro _
      rw [joinLines_singleton]
    · intro htwo
      simp at htwo
  · refine ⟨bodies, body ++ [line], by simp, ?_, h.nonempty, h.chunks, ?_, ?_, hopen, h.fits, ?_,
      ?_⟩
    · rw [← List.append_assoc, h.lines_eq]
    · cases body with
      | nil =>
          have hbodies := h.started rfl
          dsimp only
          rw [hempty.mpr rfl, hbodies]
          rfl
      | cons first rest =>
          dsimp only
          rw [h.currentChunk]
          rfl
    · intro hnil
      simp at hnil
    · intro _
      dsimp only
      by_cases hbody : body = []
      · rw [hempty.mpr hbody, List.nil_append, joinLines_singleton]
        omega
      · have hcurrent : s.currentChunk ≠ [] := fun hnil => hbody (hempty.mp hnil)
        rw [joinLines_append hcurrent (List.cons_ne_nil _ _), List.length_append, List.length_cons,
          joinLines_singleton]
        have hlong := h.long hbody
        omega
    · intro htwo
      have hbody : body ≠ [] := by
        intro hnil
        rw [hnil] at htwo
        simp at htwo
      have hcurrent : s.currentChunk ≠ [] := fun hnil => hbody (hempty.mp hnil)
      by_contra hmore
      exact hcut ⟨not_le.mp hmore, hcurrent⟩

/-- Behind all lines of a text. -/
theorem holds_foldl (limit : ℕ) {lines : List Text} (hlines : lines ≠ []) :
    ∃ bodies body, body ≠ [] ∧
      Holds limit lines bodies body (lines.foldl (Splitter.addLine limit) ⟨[], [], 0, []⟩) := by
  have hstart : Holds limit [] [] [] ⟨[], [], 0, []⟩ :=
    ⟨rfl, by simp, rfl, rfl, fun _ => rfl, rfl, trivial, fun h => absurd rfl h, by simp⟩
  have hrun : ∃ bodies body, (lines ≠ [] → body ≠ []) ∧
      Holds limit lines bodies body (lines.foldl (Splitter.addLine limit) ⟨[], [], 0, []⟩) := by
    clear hlines
    induction lines using List.reverseRecOn with
    | nil => exact ⟨[], [], fun h => absurd rfl h, hstart⟩
    | append_singleton lines line ih =>
        rcases ih with ⟨bodies, body, -, hholds⟩
        rcases hholds.addLine line with ⟨bodies', body', hne, hnext⟩
        refine ⟨bodies', body', fun _ => hne, ?_⟩
        rw [List.foldl_append]
        exact hnext
  rcases hrun with ⟨bodies, body, hne, hholds⟩
  exact ⟨bodies, body, hne hlines, hholds⟩

/-- The chunks of a text. -/
theorem splitHtmlSafe_eq (text : Text) (limit : ℕ) :
    ∃ bodies last, bodies.flatten ++ last = text.splitOn '\n' ∧ (∀ b ∈ bodies, b ≠ []) ∧
      last ≠ [] ∧ Fits limit [] (bodies ++ [last]) ∧
      splitHtmlSafe text limit = closedPieces [] bodies ++ [piece bodies.flatten last] := by
  rcases holds_foldl limit (List.splitOn_ne_nil '\n' text) with ⟨bodies, last, hlast, hholds⟩
  have hcurrent : ((text.splitOn '\n').foldl (Splitter.addLine limit)
      ⟨[], [], 0, []⟩).currentChunk ≠ [] := by
    rw [hholds.currentChunk]
    cases last with
    | nil => exact absurd rfl hlast
    | cons first rest => simp [underTags]
  refine ⟨bodies, last, hholds.lines_eq, hholds.nonempty, hlast, ?_, ?_⟩
  · refine fits_concat.mpr ⟨hholds.fits, fun htwo => ?_⟩
    rw [List.nil_append, ← hholds.joinLines_currentChunk hlast]
    exact (hholds.long hlast).trans (hholds.short htwo)
  · unfold splitHtmlSafe
    dsimp only
    rw [if_pos hcurrent, hholds.chunks, hholds.joinLines_currentChunk hlast]

/-- What begins with `blockquote` begins with `b`, which is tried first. -/
theorem find?_ne_blockquote {cs : Text} {n : Name}
    (h : alternatives.find? (fun n => n.word.isPrefixOf cs) = some n) : n ≠ .blockquote := by
  intro hquote
  subst hquote
  have hquote : Name.blockquote.word.isPrefixOf cs = true :=
    List.find?_some (p := fun n : Name => n.word.isPrefixOf cs) h
  have hb : Name.b.word.isPrefixOf cs = true := by
    refine List.isPrefixOf_iff_prefix.mpr ?_
    refine List.IsPrefix.trans ?_ (List.isPrefixOf_iff_prefix.mp hquote)
    exact ⟨_, rfl⟩
  rw [alternatives, List.find?_cons] at h
  split at h
  · cases h
  · rw [List.find?_cons, hb] at h
    cases h

/-- No tag is found that is named as a block quote. -/
theorem tagAt_ne_blockquote {cs : Text} {mark : Mark Name} (h : tagAt cs = some mark) :
    nameOf mark ≠ .blockquote := by
  unfold tagAt at h
  split at h
  · split_ifs at h
    rcases Option.map_eq_some_iff.mp h with ⟨n, hn, rfl⟩
    exact find?_ne_blockquote hn
  · split_ifs at h
    rcases Option.map_eq_some_iff.mp h with ⟨n, hn, rfl⟩
    exact find?_ne_blockquote hn

theorem scan_ne_blockquote {inside : Bool} {cs : Text} {mark : Mark Name}
    (h : mark ∈ scan inside cs) : nameOf mark ≠ .blockquote := by
  induction cs generalizing inside with
  | nil =>
      rw [scan] at h
      cases h
  | cons c cs ih =>
      cases inside with
      | true =>
          rw [scan] at h
          split_ifs at h
          · exact ih h
          · exact ih h
      | false =>
          rw [scan] at h
          split_ifs at h
          · split at h
            · rename_i found hfound
              rcases List.mem_cons.mp h with rfl | hrest
              · exact tagAt_ne_blockquote hfound
              · exact ih hrest
            · exact ih h
          · exact ih h

/-- The names that are tracked: neither links nor block quotes. -/
theorem name_openAfter {lines : List Text} {n : Name} (h : n ∈ openAfter lines) :
    n ≠ .a ∧ n ≠ .blockquote := by
  induction lines using List.reverseRecOn generalizing n with
  | nil => cases h
  | append_singleton lines line ih =>
      rw [openAfter_concat, trackLine] at h
      have hmarks : ∀ mark ∈ scan false line, nameOf mark ≠ .blockquote :=
        fun mark hmark => scan_ne_blockquote hmark
      generalize scan false line = found at hmarks h
      generalize openAfter lines = openTags at ih h
      induction found generalizing openTags with
      | nil => exact ih h
      | cons mark rest hrest =>
          refine hrest (fun m hm => hmarks m (List.mem_cons_of_mem mark hm)) _ ?_ h
          intro m hm
          have hne := hmarks mark List.mem_cons_self
          dsimp only at hm
          split_ifs at hm with hlink
          · exact ih hm
          · cases mark with
            | opening k =>
                rw [Mark.track, List.mem_append, List.mem_singleton] at hm
                rcases hm with hold | hnew
                · exact ih hold
                · rw [hnew]
                  exact ⟨hlink, hne⟩
            | closing k => exact ih (List.mem_of_mem_erase hm)

/-- A block quote is never among the open tags: `tag_pattern` takes it for bold text, which is
what a cut inside it closes and opens again. -/
theorem blockquote_never_open (lines : List Text) : Name.blockquote ∉ openAfter lines :=
  fun h => (name_openAfter h).2 rfl

/-- A quote over two lines, cut between them. -/
example : splitHtmlSafe "<blockquote>ab\ncd</blockquote>".toList 15 =
    ["<blockquote>ab</b>".toList, "<b>cd</blockquote>".toList] := by
  decide +kernel

/-! ## Well nested texts -/

/-- A part of a line: text without a tag, or a tag with its attributes. -/
inductive Token where
  | text (cs : Text)
  | tag (mark : Mark Name) (attrs : Text)
deriving Repr, DecidableEq

/-- The token as it is written. -/
def Token.render : Token → Text
  | .text cs => cs
  | .tag (.opening n) attrs => '<' :: (n.word ++ attrs) ++ ['>']
  | .tag (.closing n) attrs => '<' :: '/' :: (n.word ++ attrs) ++ ['>']

/-- The mark of a token. -/
def Token.mark? : Token → Option (Mark Name)
  | .text _ => none
  | .tag mark _ => some mark

/-- The marks of some tokens. -/
def marks (tokens : List Token) : List (Mark Name) :=
  tokens.filterMap Token.mark?

/-- Some tokens as they are written. -/
def renderAll (tokens : List Token) : Text :=
  tokens.flatMap Token.render

/-- Escaped text, and tags of the names that are recognised and tracked. -/
def Token.WellFormed : Token → Prop
  | .text cs => '<' ∉ cs
  | .tag mark attrs => '>' ∉ attrs ∧ nameOf mark ≠ .a ∧ nameOf mark ≠ .blockquote

instance : DecidablePred Token.WellFormed
  | .text cs => inferInstanceAs (Decidable ('<' ∉ cs))
  | .tag _ _ => inferInstanceAs (Decidable (_ ∧ _ ∧ _))

/-- A name is recognised whatever follows it. -/
theorem find?_word {n : Name} (hn : n ≠ .blockquote) (rest : Text) :
    alternatives.find? (fun m => m.word.isPrefixOf (n.word ++ rest)) = some n := by
  cases n with
  | blockquote => exact absurd rfl hn
  | pre => rfl
  | b => rfl
  | i => rfl
  | code => rfl
  | u => rfl
  | s => rfl
  | a => rfl
  | tgSpoiler => rfl

/-- Text without a tag is passed over. -/
theorem scan_text {cs rest : Text} (h : '<' ∉ cs) :
    scan false (cs ++ rest) = scan false rest := by
  induction cs with
  | nil => rfl
  | cons c cs ih =>
      rw [List.mem_cons, not_or] at h
      rw [List.cons_append, scan, if_neg (Ne.symm h.1), ih h.2]

/-- A tag is passed over to its end. -/
theorem scan_inside {cs rest : Text} (h : '>' ∉ cs) :
    scan true (cs ++ '>' :: rest) = scan false rest := by
  induction cs with
  | nil => rw [List.nil_append, scan, if_pos rfl]
  | cons c cs ih =>
      rw [List.mem_cons, not_or] at h
      rw [List.cons_append, scan, if_neg (Ne.symm h.1), ih h.2]

theorem tagAt_opening {n : Name} (hn : n ≠ .blockquote) {attrs rest : Text} :
    tagAt (n.word ++ attrs ++ '>' :: rest) = some (.opening n) := by
  have hother : ∀ cs : Text, cs.head? ≠ some '/' →
      tagAt cs = if '>' ∈ cs then
        (alternatives.find? fun n => n.word.isPrefixOf cs).map Mark.opening else none := by
    intro cs hhead
    cases cs with
    | nil => rfl
    | cons c cs =>
        unfold tagAt
        split
        · rename_i heq
          rw [(List.cons.inj heq).1] at hhead
          exact absurd rfl hhead
        · rfl
  rw [hother, if_pos (by simp), List.append_assoc, find?_word hn, Option.map_some]
  cases n <;> simp [Name.word]

theorem tagAt_closing {n : Name} (hn : n ≠ .blockquote) {attrs rest : Text} :
    tagAt ('/' :: (n.word ++ attrs) ++ '>' :: rest) = some (.closing n) := by
  rw [List.cons_append, tagAt, if_pos (by simp), List.append_assoc, find?_word hn, Option.map_some]

/-- No name holds the end of a tag. -/
theorem not_mem_word (n : Name) : '>' ∉ n.word := by
  cases n <;> decide

/-- A scan finds the marks of the tokens that were written. -/
theorem scan_renderAll {tokens : List Token} (hwf : ∀ t ∈ tokens, t.WellFormed) :
    scan false (renderAll tokens) = marks tokens := by
  induction tokens with
  | nil => rfl
  | cons t rest ih =>
      have hrest := ih fun t' ht' => hwf t' (List.mem_cons_of_mem t ht')
      have ht := hwf t List.mem_cons_self
      rw [renderAll, List.flatMap_cons, ← renderAll]
      cases t with
      | text cs =>
          rw [Token.render, scan_text ht, hrest]
          rfl
      | tag mark attrs =>
          rcases ht with ⟨hattrs, -, hquote⟩
          cases mark with
          | opening n =>
              have hname : n ≠ .blockquote := hquote
              have hbody : '>' ∉ n.word ++ attrs := by
                rw [List.mem_append, not_or]
                exact ⟨not_mem_word n, hattrs⟩
              rw [Token.render, List.cons_append, List.cons_append, List.append_assoc,
                List.singleton_append, scan, if_pos rfl, tagAt_opening hname]
              dsimp only
              rw [scan_inside hbody, hrest]
              rfl
          | closing n =>
              have hname : n ≠ .blockquote := hquote
              have hbody : '>' ∉ '/' :: (n.word ++ attrs) := by
                rw [List.mem_cons, not_or, List.mem_append, not_or]
                exact ⟨by decide, not_mem_word n, hattrs⟩
              rw [Token.render, List.cons_append, List.cons_append, List.append_assoc,
                List.singleton_append, scan, if_pos rfl, tagAt_closing hname]
              dsimp only
              rw [scan_inside hbody, hrest]
              rfl

/-- Tracking the marks of a written line. -/
theorem trackLine_renderAll {tokens : List Token} (hwf : ∀ t ∈ tokens, t.WellFormed)
    (openTags : List Name) :
    trackLine openTags (renderAll tokens) = (marks tokens).foldl Mark.track openTags := by
  have hnames : ∀ mark ∈ marks tokens, nameOf mark ≠ .a := by
    intro mark hmark
    rcases List.mem_filterMap.mp hmark with ⟨t, ht, hmark⟩
    have h := hwf t ht
    cases t with
    | text cs => cases hmark
    | tag m attrs =>
        rw [← Option.some.inj hmark]
        exact h.2.1
  rw [trackLine, scan_renderAll hwf]
  generalize marks tokens = found at hnames
  induction found generalizing openTags with
  | nil => rfl
  | cons mark rest ih =>
      rw [List.foldl_cons, List.foldl_cons, if_neg (hnames mark List.mem_cons_self)]
      exact ih _ fun m hm => hnames m (List.mem_cons_of_mem mark hm)

/-- The marks of some lines. -/
def lineMarks (lines : List (List Token)) : List (Mark Name) :=
  lines.flatMap marks

theorem lineMarks_append (a b : List (List Token)) :
    lineMarks (a ++ b) = lineMarks a ++ lineMarks b :=
  List.flatMap_append

/-- Every token of the lines is well formed. -/
def LinesWellFormed (lines : List (List Token)) : Prop :=
  ∀ line ∈ lines, ∀ t ∈ line, t.WellFormed

instance : DecidablePred LinesWellFormed :=
  fun lines => inferInstanceAs (Decidable (∀ line ∈ lines, ∀ t ∈ line, t.WellFormed))

/-- Behind written lines whose marks nest so far the open names are tracked. -/
theorem openAfter_render {lines : List (List Token)} {names : List Name}
    (hwf : LinesWellFormed lines) (h : Mark.nest [] (lineMarks lines) = some names) :
    openAfter (lines.map renderAll) = names := by
  rw [← Mark.foldl_track List.nodup_nil h]
  clear h
  induction lines using List.reverseRecOn with
  | nil => rfl
  | append_singleton lines line ih =>
      rw [List.map_append, List.map_singleton, openAfter_concat, lineMarks_append,
        List.foldl_append, ih fun l hl => hwf l (List.mem_append_left _ hl),
        trackLine_renderAll (hwf line (by simp))]
      simp [lineMarks]

/-- Lines joined as tokens. -/
def joinTokens (lines : List (List Token)) : List Token :=
  List.intercalate [.text ['\n']] lines

theorem renderAll_append (a b : List Token) : renderAll (a ++ b) = renderAll a ++ renderAll b :=
  List.flatMap_append

theorem marks_append (a b : List Token) : marks (a ++ b) = marks a ++ marks b :=
  List.filterMap_append

/-- Joined lines are the rendered joined tokens, under the marks of the lines. -/
theorem joinTokens_spec (lines : List (List Token)) :
    joinLines (lines.map renderAll) = renderAll (joinTokens lines) ∧
      marks (joinTokens lines) = lineMarks lines ∧
      (LinesWellFormed lines → ∀ t ∈ joinTokens lines, t.WellFormed) := by
  induction lines with
  | nil => exact ⟨rfl, rfl, fun _ t ht => by cases ht⟩
  | cons line rest ih =>
      cases rest with
      | nil =>
          rw [joinTokens, List.intercalate_singleton]
          refine ⟨by simp, by simp [lineMarks], fun hwf t ht => hwf line List.mem_cons_self t ht⟩
      | cons next rest =>
          rcases ih with ⟨hrender, hmarks, hwell⟩
          have hne : next :: rest ≠ [] := List.cons_ne_nil next rest
          rw [joinTokens, List.intercalate_cons_of_ne_nil hne, ← joinTokens]
          refine ⟨?_, ?_, fun hwf t ht => ?_⟩
          · rw [List.map_cons, joinLines_cons (by simp), hrender, renderAll_append,
              renderAll_append, List.append_assoc]
            rfl
          · rw [marks_append, marks_append, hmarks, List.append_assoc]
            rfl
          · rw [List.mem_append, List.mem_append] at ht
            rcases ht with (hline | hbreak) | hrest
            · exact hwf line List.mem_cons_self t hline
            · rw [List.mem_singleton.mp hbreak]
              have hplain : '<' ∉ ['\n'] := by decide
              exact hplain
            · exact hwell (fun l hl => hwf l (List.mem_cons_of_mem line hl)) t hrest

/-- A well nested text of well formed tokens. -/
structure WellNested (text : Text) (tokens : List Token) : Prop where
  render : text = renderAll tokens
  wellFormed : ∀ t ∈ tokens, t.WellFormed
  nested : Mark.nest [] (marks tokens) = some []

/-- Tags without attributes. -/
def bare (mark : Name → Mark Name) (names : List Name) : List Token :=
  names.map fun n => .tag (mark n) []

theorem renderAll_bare_opening (names : List Name) :
    renderAll (bare .opening names) = names.flatMap openTag := by
  rw [renderAll, bare, List.flatMap_map]
  congr 1
  funext n
  rw [Token.render, List.append_nil]
  rfl

theorem renderAll_bare_closing (names : List Name) :
    renderAll (bare .closing names) = names.flatMap closeTag := by
  rw [renderAll, bare, List.flatMap_map]
  congr 1
  funext n
  rw [Token.render, List.append_nil]
  rfl

theorem marks_bare (mark : Name → Mark Name) (names : List Name) :
    marks (bare mark names) = names.map mark := by
  rw [marks, bare, List.filterMap_map]
  exact List.filterMap_eq_map_iff_forall_eq_some.mpr fun n _ => rfl

/-- Some lines of a written text between the tags that are open before them and those that are
open behind them. -/
theorem piece_nested {before body : List (List Token)} {outer inner : List Name}
    (hwf : LinesWellFormed (before ++ body))
    (houter : Mark.nest [] (lineMarks before) = some outer)
    (hinner : Mark.nest outer (lineMarks body) = some inner) :
    ∃ tokens, WellNested (piece (before.map renderAll) (body.map renderAll) ++
      inner.reverse.flatMap closeTag) tokens := by
  have hbefore : LinesWellFormed before := fun l hl => hwf l (List.mem_append_left _ hl)
  have hbody : LinesWellFormed body := fun l hl => hwf l (List.mem_append_right _ hl)
  have hall : Mark.nest [] (lineMarks (before ++ body)) = some inner := by
    rw [lineMarks_append, Mark.nest_append, houter, Option.bind_some, hinner]
  have hopen := openAfter_render hbefore houter
  have hbehind := openAfter_render hwf hall
  rcases joinTokens_spec body with ⟨hjoin, hmarks, hwell⟩
  refine ⟨bare .opening outer ++ joinTokens body ++ bare .closing inner.reverse, ?_, ?_, ?_⟩
  · rw [piece, hopen, hjoin, renderAll_append, renderAll_append, renderAll_bare_opening,
      renderAll_bare_closing]
  · intro t ht
    rw [List.mem_append, List.mem_append] at ht
    rcases ht with (hfront | hline) | hback
    · rcases List.mem_map.mp hfront with ⟨n, hn, rfl⟩
      rw [← hopen] at hn
      exact ⟨List.not_mem_nil, name_openAfter hn⟩
    · exact hwell hbody t hline
    · rcases List.mem_map.mp hback with ⟨n, hn, rfl⟩
      rw [List.mem_reverse, ← hbehind] at hn
      exact ⟨List.not_mem_nil, name_openAfter hn⟩
  · have hnodup : outer.Nodup := Mark.nodup_nest List.nodup_nil houter
    have hstart : Mark.nest [] (outer.map Mark.opening) = some outer := by
      have hnew : ([] ++ outer).Nodup := by simpa using hnodup
      have h := Mark.nest_openings hnew
      rwa [List.nil_append] at h
    rw [marks_append, marks_append, marks_bare, marks_bare, hmarks, List.append_assoc,
      Mark.nest_append, hstart, Option.bind_some, Mark.nest_append, hinner, Option.bind_some,
      Mark.nest_closings]

/-- A sequence that nests to its end nests up to any cut. -/
theorem nest_cut {before body rest : List (List Token)} {outer : List Name}
    (houter : Mark.nest [] (lineMarks before) = some outer)
    (h : Mark.nest [] (lineMarks (before ++ body ++ rest)) = some []) :
    ∃ inner, Mark.nest outer (lineMarks body) = some inner := by
  rw [List.append_assoc, lineMarks_append, lineMarks_append, Mark.nest_append, houter,
    Option.bind_some, Mark.nest_append] at h
  rcases Option.bind_eq_some_iff.mp h with ⟨inner, hinner, -⟩
  exact ⟨inner, hinner⟩

/-- The closed pieces of a well nested text are well nested. -/
theorem closedPieces_nested {bodies : List (List (List Token))}
    {before last : List (List Token)} {outer : List Name}
    (hwf : LinesWellFormed (before ++ bodies.flatten ++ last))
    (houter : Mark.nest [] (lineMarks before) = some outer)
    (h : Mark.nest [] (lineMarks (before ++ bodies.flatten ++ last)) = some []) {chunk : Text}
    (hchunk : chunk ∈ closedPieces (before.map renderAll)
      (bodies.map fun body => body.map renderAll)) :
    ∃ tokens, WellNested chunk tokens := by
  induction bodies generalizing before outer with
  | nil => cases hchunk
  | cons body rest ih =>
      have hsplit : before ++ (body :: rest).flatten ++ last =
          before ++ body ++ (rest.flatten ++ last) := by
        rw [List.flatten_cons, List.append_assoc, List.append_assoc, List.append_assoc]
      rw [hsplit] at hwf h
      rcases nest_cut houter h with ⟨inner, hinner⟩
      have hcut : Mark.nest [] (lineMarks (before ++ body)) = some inner := by
        rw [lineMarks_append, Mark.nest_append, houter, Option.bind_some, hinner]
      have hfront : LinesWellFormed (before ++ body) :=
        fun l hl => hwf l (List.mem_append_left _ hl)
      rw [List.map_cons, closedPieces] at hchunk
      rcases List.mem_cons.mp hchunk with rfl | hrest
      · rw [closedPiece, ← List.map_append, openAfter_render hfront hcut]
        exact piece_nested hfront houter hinner
      · rw [← List.map_append] at hrest
        rw [← List.append_assoc] at hwf h
        exact ih hwf hcut h hrest

/-- Pieces of rendered lines are rendered pieces. -/
theorem exists_bodies {doc : List (List Token)} {bodies : List (List Text)} {last : List Text}
    (h : bodies.flatten ++ last = doc.map renderAll) :
    ∃ (docBodies : List (List (List Token))) (docLast : List (List Token)),
      docBodies.flatten ++ docLast = doc ∧
        bodies = docBodies.map (fun body => body.map renderAll) ∧ last = docLast.map renderAll := by
  induction bodies generalizing doc with
  | nil => exact ⟨[], doc, rfl, rfl, h⟩
  | cons body rest ih =>
      rw [List.flatten_cons, List.append_assoc] at h
      rcases List.map_eq_append_iff.mp h.symm with ⟨front, back, rfl, hfront, hback⟩
      rcases ih hback.symm with ⟨docBodies, docLast, hdoc, hbodies, hlast⟩
      refine ⟨front :: docBodies, docLast, ?_, ?_, hlast⟩
      · rw [List.flatten_cons, List.append_assoc, hdoc]
      · rw [List.map_cons, hfront, hbodies]

/-- Every chunk of a well nested text of tracked tags is well nested, wherever the text is cut:
the tags that a cut closes are opened again, in their order, behind it. -/
theorem chunks_nested {doc : List (List Token)} (hdoc : doc ≠ []) (hwf : LinesWellFormed doc)
    (hlines : ∀ line ∈ doc, '\n' ∉ renderAll line)
    (hnest : Mark.nest [] (lineMarks doc) = some []) (limit : ℕ) :
    ∀ chunk ∈ splitHtmlSafe (joinLines (doc.map renderAll)) limit,
      ∃ tokens, WellNested chunk tokens := by
  intro chunk hchunk
  rcases splitHtmlSafe_eq (joinLines (doc.map renderAll)) limit with
    ⟨bodies, last, hflat, -, -, -, hchunks⟩
  have hsplit : (joinLines (doc.map renderAll)).splitOn '\n' = doc.map renderAll := by
    refine List.splitOn_intercalate '\n' (fun l hl => ?_) (by simpa using hdoc)
    rcases List.mem_map.mp hl with ⟨line, hline, rfl⟩
    exact hlines line hline
  rw [hsplit] at hflat
  rcases exists_bodies hflat with ⟨docBodies, docLast, rfl, rfl, rfl⟩
  rw [hchunks] at hchunk
  rcases List.mem_append.mp hchunk with hclosed | hfinal
  · have hstart : Mark.nest [] (lineMarks []) = some [] := rfl
    exact closedPieces_nested hwf hstart hnest hclosed
  · rw [List.mem_singleton.mp hfinal]
    have hcut := hnest
    rw [lineMarks_append, Mark.nest_append] at hcut
    rcases Option.bind_eq_some_iff.mp hcut with ⟨outer, houter, hinner⟩
    have hflatten : (docBodies.map fun body => body.map renderAll).flatten =
        docBodies.flatten.map renderAll := by
      rw [List.map_flatten]
    rw [hflatten]
    rcases piece_nested hwf houter hinner with ⟨tokens, htokens⟩
    refine ⟨tokens, ?_⟩
    simpa using htokens

/-- Bold text around a preformatted block. -/
def boldBlock : List (List Token) :=
  [[.tag (.opening .b) [], .text ['x'], .tag (.opening .pre) [], .text ['a', 'b']],
    [.text ['c', 'd'], .tag (.closing .pre) [], .tag (.closing .b) []]]

/-- Its first chunk at a limit of 15. -/
theorem chunks_nested_boldBlock :
    ∃ tokens, WellNested "<b>x<pre>ab</pre></b>".toList tokens :=
  @chunks_nested boldBlock (by decide) (by decide +kernel) (by decide +kernel) (by decide +kernel)
    15 _ (by decide +kernel)

/-! ## Sending -/

/-- `re.sub(r"<[^>]+>", "", chunk)`; the flag says that the scan is inside a tag. -/
def stripTags : Bool → Text → Text
  | _, [] => []
  | true, c :: cs => if c = '>' then stripTags false cs else stripTags true cs
  | false, c :: cs =>
      if c = '<' ∧ '>' ∈ cs ∧ cs.head? ≠ some '>' then stripTags true cs
      else c :: stripTags false cs

/-- Whether a message is answered, or one with buttons is edited in place. -/
inductive Target where
  | message
  | callbackQuery
deriving Repr, DecidableEq

/-- A text that the chat shows, with or without the buttons. -/
structure Shown where
  text : Text
  markup : Bool
deriving Repr, DecidableEq

/-- `reply_text` adds a message, `edit_text` replaces the one that was there. -/
def Target.show : Target → List Shown → Shown → List Shown
  | .message, chat, shown => chat ++ [shown]
  | .callbackQuery, _, shown => [shown]

/-- Whether Telegram takes a chunk as HTML, and if it does not, whether it takes the plain text. -/
structure Taken where
  html : Bool
  plain : Bool
deriving Repr, DecidableEq

/-- What becomes of a chunk; nothing if both attempts raise. -/
def attempt (chunk : Text) (taken : Taken) : Option Text :=
  if taken.html then some chunk else if taken.plain then some (stripTags false chunk) else none

/-- The loop of `send_long_message` over its chunks; it ends with the first one that raises. -/
def sendChunks (target : Target) : List Shown → List (Text × Taken) → List Shown
  | chat, [] => chat
  | chat, (chunk, taken) :: rest =>
      match attempt chunk taken with
      | none => chat
      | some text => sendChunks target (target.show chat ⟨text, rest.isEmpty⟩) rest

/-- `send_long_message`, on what Telegram takes of every chunk; a short text is sent as it is. -/
def sendLongMessage (target : Target) (text : Text) (taken : ℕ → Taken) : List Shown :=
  if text.length ≤ 4000 then
    if (taken 0).html then target.show [] ⟨text, true⟩ else []
  else
    sendChunks target []
      ((splitHtmlSafe text 4000).zipIdx.map fun chunk => (chunk.1, taken chunk.2))

/-- What is sent of the chunks: all of them up to the first that raises, the last of all with the
buttons. -/
def sent : List (Text × Taken) → List Shown
  | [] => []
  | (chunk, taken) :: rest =>
      match attempt chunk taken with
      | none => []
      | some text => ⟨text, rest.isEmpty⟩ :: sent rest

/-- A message is answered with everything that is sent. -/
theorem sendChunks_message (chat : List Shown) (chunks : List (Text × Taken)) :
    sendChunks .message chat chunks = chat ++ sent chunks := by
  induction chunks generalizing chat with
  | nil => rw [sendChunks, sent, List.append_nil]
  | cons chunk rest ih =>
      rw [sendChunks, sent]
      cases attempt chunk.1 chunk.2 with
      | none => rw [List.append_nil]
      | some text =>
          dsimp only
          rw [ih, Target.show, List.append_assoc, List.singleton_append]

/-- An edited message shows what was sent last. -/
theorem sendChunks_callbackQuery (chat : List Shown) (chunks : List (Text × Taken)) :
    sendChunks .callbackQuery chat chunks =
      ((sent chunks).getLast?.map fun s => [s]).getD chat := by
  induction chunks generalizing chat with
  | nil => rfl
  | cons chunk rest ih =>
      rw [sendChunks, sent]
      cases attempt chunk.1 chunk.2 with
      | none => rfl
      | some text =>
          dsimp only
          rw [ih, Target.show, List.getLast?_cons]
          cases (sent rest).getLast? <;> rfl

/-- What the chat shows of a chunk that Telegram takes. -/
def Taken.shown (taken : Taken) (chunk : Text) : Text :=
  if taken.html then chunk else stripTags false chunk

theorem attempt_eq_some {taken : Taken} (h : taken.html = true ∨ taken.plain = true)
    (chunk : Text) : attempt chunk taken = some (taken.shown chunk) := by
  rw [attempt, Taken.shown]
  rcases h with h | h
  · simp [h]
  · rw [h]
    split <;> rfl

/-- Where Telegram takes every chunk, one way or the other, all are sent, in their order. -/
theorem sent_zipIdx (chunks : List Text) {taken : ℕ → Taken}
    (htaken : ∀ n, (taken n).html = true ∨ (taken n).plain = true) (k : ℕ) :
    sent ((chunks.zipIdx k).map fun chunk => (chunk.1, taken chunk.2)) =
      (chunks.zipIdx k).map fun chunk =>
        ⟨(taken chunk.2).shown chunk.1, decide (chunk.2 + 1 = k + chunks.length)⟩ := by
  induction chunks generalizing k with
  | nil => rfl
  | cons chunk rest ih =>
      rw [List.zipIdx_cons, List.map_cons, List.map_cons, sent, attempt_eq_some (htaken k)]
      dsimp only
      rw [ih (k + 1), List.length_cons]
      have hlast : ((rest.zipIdx (k + 1)).map fun chunk => (chunk.1, taken chunk.2)).isEmpty =
          decide (k + 1 = k + (rest.length + 1)) := by
        cases rest <;> simp
      have hlength : k + 1 + rest.length = k + (rest.length + 1) := by omega
      rw [hlast, hlength]

/-- A text of more than four thousand characters arrives as an answer, chunk by chunk and each
chunk as it is or without its tags, the last one with the buttons; edited in place it is
overwritten chunk by chunk, until the last of these messages is left. -/
theorem sendLongMessage_shows {text : Text} (hlong : 4000 < text.length) (taken : ℕ → Taken)
    (htaken : ∀ n, (taken n).html = true ∨ (taken n).plain = true) :
    sendLongMessage .message text taken =
        ((splitHtmlSafe text 4000).zipIdx.map fun chunk =>
          ⟨(taken chunk.2).shown chunk.1,
            decide (chunk.2 + 1 = (splitHtmlSafe text 4000).length)⟩) ∧
      ∃ earlier last, sendLongMessage .message text taken = earlier ++ [last] ∧
        sendLongMessage .callbackQuery text taken = [last] := by
  have hchunks : splitHtmlSafe text 4000 ≠ [] := by
    rcases splitHtmlSafe_eq text 4000 with ⟨bodies, last, -, -, -, -, hsplit⟩
    rw [hsplit]
    simp
  have hsent := sent_zipIdx (splitHtmlSafe text 4000) htaken 0
  rw [Nat.zero_add] at hsent
  have hmessage : sendLongMessage .message text taken =
      sent ((splitHtmlSafe text 4000).zipIdx.map fun chunk => (chunk.1, taken chunk.2)) := by
    rw [sendLongMessage, if_neg (not_le.mpr hlong), sendChunks_message, List.nil_append]
  refine ⟨hmessage.trans hsent, ?_⟩
  rw [hmessage, sendLongMessage, if_neg (not_le.mpr hlong), sendChunks_callbackQuery]
  have hne : sent ((splitHtmlSafe text 4000).zipIdx.map
      fun chunk => (chunk.1, taken chunk.2)) ≠ [] := by
    rw [hsent]
    simpa using hchunks
  refine ⟨_, _, (List.dropLast_append_getLast hne).symm, ?_⟩
  rw [List.getLast?_eq_some_getLast hne]
  rfl

/-- Two long lines in bold. -/
def boldLines : Text :=
  "<b>".toList ++ List.replicate 2500 'x' ++ '\n' :: List.replicate 2500 'y' ++ "</b>".toList

/-- Telegram refuses the second one's HTML. -/
theorem sendLongMessage_shows_boldLines :
    sendLongMessage .message boldLines (fun n => ⟨n == 0, true⟩) =
        [⟨"<b>".toList ++ List.replicate 2500 'x' ++ "</b>".toList, false⟩,
          ⟨List.replicate 2500 'y', true⟩] ∧
      sendLongMessage .callbackQuery boldLines (fun n => ⟨n == 0, true⟩) =
        [⟨List.replicate 2500 'y', true⟩] := by
  rcases @sendLongMessage_shows boldLines (by decide +kernel) (fun n => ⟨n == 0, true⟩)
    fun _ => Or.inr rfl with ⟨hshown, earlier, last, hmessage, hedited⟩
  have hsplit : splitHtmlSafe boldLines 4000 =
      ["<b>".toList ++ List.replicate 2500 'x' ++ "</b>".toList,
        "<b>".toList ++ List.replicate 2500 'y' ++ "</b>".toList] := by
    decide +kernel
  have hboth : sendLongMessage .message boldLines (fun n => ⟨n == 0, true⟩) =
      [⟨"<b>".toList ++ List.replicate 2500 'x' ++ "</b>".toList, false⟩,
        ⟨List.replicate 2500 'y', true⟩] := by
    rw [hshown, hsplit]
    decide +kernel
  have hlast : some (⟨List.replicate 2500 'y', true⟩ : Shown) = some last :=
    (congrArg List.getLast? (hboth.symm.trans hmessage)).trans List.getLast?_concat
  refine ⟨hboth, ?_⟩
  rw [hedited, Option.some.inj hlast]

end MessageSplitting
end Karsa
