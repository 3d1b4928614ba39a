import Mathlib.Data.List.SplitBy
import Retouch.Segment

/-!
The grammar of tokens. Joining characters stay together and others are cut apart, so that the
tokens of a text are its runs of joining characters; `segment_eq_iff` says the same in terms of the
four kinds of token and of what may stand next to what.
-/

namespace Retouch.Text

variable {t u text : Text} {ts : List Text} {c d : Char}

/-! ### Kinds of token -/

def isWordRun (t : Text) : Bool := !t.isEmpty && t.all isWord

def isOther : Text → Bool
  | [c] => !isBreak c && !isBlank c && !isWord c
  | _ => false

/-- A text that can stand as a token. -/
def isLexeme (t : Text) : Bool := isNewline t || isBlankRun t || isWordRun t || isOther t

/-- The two texts stay apart as tokens when the second directly follows the first. -/
def staysApart (t u : Text) : Bool :=
  !(isBlankRun t && isBlankRun u) && !(isWordRun t && isWordRun u) && !(t == ['\r'] && u == ['\n'])

/-- Tokens as cutting a text leaves them. -/
structure WellCut (ts : List Text) : Prop where
  lexemes : ∀ t ∈ ts, isLexeme t
  apart : ts.IsChain fun t u => staysApart t u

/-! ### Characters and tokens -/

theorem isBreak_of_isBlank (blank : isBlank c) : isBreak c = false := by
  rcases (by simpa [isBlank] using blank : c = ' ' ∨ c = '\t') with rfl | rfl <;> decide

theorem isWord_of_isBlank (blank : isBlank c) : isWord c = false := by
  rcases (by simpa [isBlank] using blank : c = ' ' ∨ c = '\t') with rfl | rfl <;> decide

theorem isWord_of_isBreak (breaks : isBreak c) : isWord c = false := by
  rcases (by simpa [isBreak] using breaks : c = '\n' ∨ c = '\r') with rfl | rfl <;> decide

theorem joins_iff :
    joins c d ↔ (isBlank c ∧ isBlank d) ∨ (isWord c ∧ isWord d) ∨ (c = '\r' ∧ d = '\n') := by
  simp [joins, or_assoc]

theorem isNewline_iff : isNewline t ↔ t = ['\n'] ∨ t = ['\r', '\n'] ∨ t = ['\r'] := by
  simp [isNewline, or_assoc]

theorem isNewline_dominantTerminator (t : Text) : isNewline (dominantTerminator t) := by
  unfold dominantTerminator
  split
  · rfl
  · split <;> rfl

theorem isBlankRun_iff : isBlankRun t ↔ t ≠ [] ∧ ∀ c ∈ t, isBlank c := by
  simp [isBlankRun]

theorem isWordRun_iff : isWordRun t ↔ t ≠ [] ∧ ∀ c ∈ t, isWord c := by
  simp [isWordRun]

theorem isBreak_of_mem (newline : isNewline t) (member : c ∈ t) : isBreak c := by
  rcases isNewline_iff.mp newline with rfl | rfl | rfl
  · obtain rfl : c = '\n' := by simpa using member
    rfl
  · rcases (by simpa using member : c = '\r' ∨ c = '\n') with rfl | rfl <;> rfl
  · obtain rfl : c = '\r' := by simpa using member
    rfl

theorem not_of_isOther (other : isOther t) (member : c ∈ t) :
    isBreak c = false ∧ isBlank c = false ∧ isWord c = false := by
  match t, other with
  | [d], other =>
    obtain rfl : c = d := by simpa using member
    simpa [isOther, and_assoc] using other

theorem kind_of_mem (lexeme : isLexeme t) (member : c ∈ t) :
    (isBreak c → isNewline t) ∧ (isBlank c → isBlankRun t) ∧ (isWord c → isWordRun t) := by
  simp only [isLexeme, Bool.or_eq_true] at lexeme
  rcases lexeme with ((newline | blanks) | word) | other
  · have breaks := isBreak_of_mem newline member
    have blank : ¬isBlank c := fun blank => by simp [isBreak_of_isBlank blank] at breaks
    simp [newline, blank, isWord_of_isBreak breaks]
  · have blank := (isBlankRun_iff.mp blanks).2 c member
    simp [blanks, isBreak_of_isBlank blank, isWord_of_isBlank blank]
  · have word' := (isWordRun_iff.mp word).2 c member
    have breaks : ¬isBreak c := fun breaks => by simp [isWord_of_isBreak breaks] at word'
    have blank : ¬isBlank c := fun blank => by simp [isWord_of_isBlank blank] at word'
    simp [word, breaks, blank]
  · obtain ⟨breaks, blank, word⟩ := not_of_isOther other member
    simp [breaks, blank, word]

theorem isLexeme_singleton (c : Char) : isLexeme [c] := by
  by_cases breaks : isBreak c
  · rcases (by simpa [isBreak] using breaks : c = '\n' ∨ c = '\r') with rfl | rfl <;> rfl
  · cases blank : isBlank c <;> cases word : isWord c <;>
      simp [isLexeme, isBlankRun, isWordRun, isOther, breaks, blank, word]

/-- Tokens are the non-empty texts whose characters join. -/
theorem isLexeme_iff : isLexeme t ↔ t ≠ [] ∧ t.IsChain fun c d => joins c d := by
  constructor
  · intro lexeme
    simp only [isLexeme, Bool.or_eq_true] at lexeme
    rcases lexeme with ((newline | blanks) | word) | other
    · rcases isNewline_iff.mp newline with rfl | rfl | rfl
      · simp
      · simpa using joins_iff.mpr (Or.inr (Or.inr ⟨rfl, rfl⟩))
      · simp
    · obtain ⟨some, blank⟩ := isBlankRun_iff.mp blanks
      refine ⟨some, (List.pairwise_of_forall_mem_list ?_).isChain⟩
      exact fun c first d second => joins_iff.mpr (Or.inl ⟨blank c first, blank d second⟩)
    · obtain ⟨some, word⟩ := isWordRun_iff.mp word
      refine ⟨some, (List.pairwise_of_forall_mem_list ?_).isChain⟩
      exact fun c first d second => joins_iff.mpr (Or.inr (Or.inl ⟨word c first, word d second⟩))
    · match t, other with
      | [c], _ => simp
  · rintro ⟨some, chain⟩
    induction t with
    | nil => exact (some rfl).elim
    | cons c rest ih =>
      cases rest with
      | nil => exact isLexeme_singleton c
      | cons d rest =>
        obtain ⟨joint, chain⟩ := List.isChain_cons_cons.mp chain
        have lexeme := ih (by simp) chain
        obtain ⟨newline, blanks, word⟩ := kind_of_mem lexeme List.mem_cons_self
        rcases joins_iff.mp joint with ⟨first, second⟩ | ⟨first, second⟩ | ⟨rfl, rfl⟩
        · have run := (isBlankRun_iff.mp (blanks second)).2
          have whole : isBlankRun (c :: d :: rest) :=
            isBlankRun_iff.mpr ⟨by simp, List.forall_mem_cons.mpr ⟨first, run⟩⟩
          simp [isLexeme, whole]
        · have run := (isWordRun_iff.mp (word second)).2
          have whole : isWordRun (c :: d :: rest) :=
            isWordRun_iff.mpr ⟨by simp, List.forall_mem_cons.mpr ⟨first, run⟩⟩
          simp [isLexeme, whole]
        · obtain rfl : rest = [] := by
            simpa [isNewline_iff] using newline rfl
          rfl

theorem staysApart_iff (first : isLexeme t) (second : isLexeme u) :
    staysApart t u ↔
      ∃ some some', joins (t.getLast some) (u.head some') = false := by
  obtain ⟨some, -⟩ := isLexeme_iff.mp first
  obtain ⟨some', -⟩ := isLexeme_iff.mp second
  have last := kind_of_mem first (List.getLast_mem some)
  have head := kind_of_mem second (List.head_mem some')
  suffices same : joins (t.getLast some) (u.head some') ↔ ¬staysApart t u by
    simp [some, some', ← Bool.not_eq_true, same]
  rw [joins_iff]
  constructor
  · rintro (⟨blank, blank'⟩ | ⟨word, word'⟩ | ⟨cr, lf⟩)
    · simp [staysApart, last.2.1 blank, head.2.1 blank']
    · simp [staysApart, last.2.2 word, head.2.2 word']
    · have newline := last.1 (by rw [cr]; rfl)
      have newline' := head.1 (by rw [lf]; rfl)
      rcases isNewline_iff.mp newline with rfl | rfl | rfl <;>
        rcases isNewline_iff.mp newline' with rfl | rfl | rfl <;> simp_all [staysApart]
  · intro joint
    simp only [staysApart, Bool.and_eq_true, Bool.not_eq_true', Bool.and_eq_false_iff, not_and_or,
      beq_eq_false_iff_ne, ne_eq, not_or, Bool.not_eq_false, not_not] at joint
    rcases joint with (⟨blanks, blanks'⟩ | ⟨word, word'⟩) | ⟨rfl, rfl⟩
    · exact Or.inl ⟨(isBlankRun_iff.mp blanks).2 _ (List.getLast_mem some),
        (isBlankRun_iff.mp blanks').2 _ (List.head_mem some')⟩
    · exact Or.inr (Or.inl ⟨(isWordRun_iff.mp word).2 _ (List.getLast_mem some),
        (isWordRun_iff.mp word').2 _ (List.head_mem some')⟩)
    · exact Or.inr (Or.inr ⟨rfl, rfl⟩)

/-! ### Cutting -/

theorem segment_eq_splitBy (text : Text) : segment text = text.splitBy joins := by
  induction text with
  | nil => rfl
  | cons c rest ih =>
    obtain ⟨text, nonempty, joint, cut⟩ := List.splitBy_eq_iff.mp ih.symm
    rw [segment]
    symm
    rw [List.splitBy_eq_iff]
    match tokens : segment rest with
    | [] =>
      rw [tokens] at text
      simp [attach, text]
    | [] :: others => simp [tokens] at nonempty
    | (d :: token) :: others =>
      rw [tokens] at text nonempty joint cut
      obtain ⟨next, cut⟩ := List.isChain_cons.mp cut
      by_cases joined : joins c d
      · refine ⟨by simp [attach, joined, text], by simpa [attach, joined] using nonempty, ?_, ?_⟩
        · simpa [attach, joined] using joint
        · simp only [attach, joined, if_true]
          refine List.isChain_cons.mpr ⟨?_, cut⟩
          intro u member
          obtain ⟨_, some, apart⟩ := next u member
          exact ⟨by simp, some, by simpa using apart⟩
      · refine ⟨by simp [attach, joined, text], by simpa [attach, joined] using nonempty, ?_, ?_⟩
        · simpa [attach, joined] using joint
        · simp only [attach, joined]
          refine List.isChain_cons.mpr ⟨?_, List.isChain_cons.mpr ⟨next, cut⟩⟩
          intro u member
          obtain rfl : d :: token = u := by simpa using member
          exact ⟨by simp, by simp, by simpa using joined⟩

theorem wellCut_iff : WellCut ts ↔ [] ∉ ts ∧ (∀ t ∈ ts, t.IsChain fun c d => joins c d) ∧
    ts.IsChain fun t u => ∃ some some', joins (t.getLast some) (u.head some') = false := by
  have apart (lexemes : ∀ t ∈ ts, isLexeme t) : (ts.IsChain fun t u => staysApart t u) ↔
      ts.IsChain fun t u => ∃ some some', joins (t.getLast some) (u.head some') = false :=
    List.IsChain.iff_of_mem_imp fun t u first second =>
      staysApart_iff (lexemes t first) (lexemes u second)
  constructor
  · intro cut
    refine ⟨?_, ?_, (apart cut.lexemes).mp cut.apart⟩
    · intro empty
      exact (isLexeme_iff.mp (cut.lexemes [] empty)).1 rfl
    · intro t member
      exact (isLexeme_iff.mp (cut.lexemes t member)).2
  · rintro ⟨nonempty, joint, cut⟩
    have lexemes : ∀ t ∈ ts, isLexeme t := by
      intro t member
      exact isLexeme_iff.mpr ⟨ne_of_mem_of_not_mem member nonempty, joint t member⟩
    exact ⟨lexemes, (apart lexemes).mpr cut⟩

/-- The tokens of a text are the only well-cut list that makes it up. -/
theorem segment_eq_iff : segment text = ts ↔ ts.flatten = text ∧ WellCut ts := by
  rw [segment_eq_splitBy, List.splitBy_eq_iff, wellCut_iff, eq_comm]

@[simp] theorem flatten_segment (text : Text) : (segment text).flatten = text :=
  (segment_eq_iff.mp rfl).1

theorem wellCut_segment (text : Text) : WellCut (segment text) :=
  (segment_eq_iff.mp rfl).2

theorem WellCut.segment_flatten (cut : WellCut ts) : segment ts.flatten = ts :=
  segment_eq_iff.mpr ⟨rfl, cut⟩

/-- The tokens of a text are the only well-cut list that makes it up, so that the lists which
cutting gives back from their own text are just the well-cut ones. -/
theorem segment_unique (text : Text) :
    (segment text).flatten = text ∧ WellCut (segment text) ∧
    (∀ ts, ts.flatten = text ∧ WellCut ts ↔ ts = segment text) ∧
    ∀ ts, segment ts.flatten = ts ↔ WellCut ts := by
  refine ⟨flatten_segment text, wellCut_segment text, fun ts => ?_, fun ts => ?_⟩
  · rw [← segment_eq_iff, eq_comm]
  · rw [segment_eq_iff, eq_self_iff_true, true_and]

/-! ### Tokens next to each other -/

theorem isLexeme_append_newline (lexeme : isLexeme t) (other : isNewline t = false)
    (newline : isNewline u) : isLexeme (t ++ u) = false := by
  by_contra whole
  have whole := eq_true_of_ne_false whole
  have some : u ≠ [] := by
    rintro rfl
    cases newline
  have last := isBreak_of_mem newline (List.head_mem some)
  have breaks := (kind_of_mem whole (List.mem_append_right t (List.head_mem some))).1 last
  have first := List.head_mem (isLexeme_iff.mp lexeme).1
  have again := (kind_of_mem lexeme first).1 (isBreak_of_mem breaks (List.mem_append_left u first))
  simp [other] at again

theorem wellCut_nil : WellCut [] := ⟨by simp, List.isChain_nil⟩

theorem wellCut_cons : WellCut (t :: ts) ↔
    isLexeme t ∧ (∀ u ∈ ts.head?, staysApart t u) ∧ WellCut ts := by
  constructor
  · rintro ⟨lexemes, apart⟩
    obtain ⟨first, lexemes⟩ := List.forall_mem_cons.mp lexemes
    obtain ⟨next, apart⟩ := List.isChain_cons.mp apart
    exact ⟨first, next, lexemes, apart⟩
  · rintro ⟨first, next, lexemes, apart⟩
    exact ⟨List.forall_mem_cons.mpr ⟨first, lexemes⟩, List.isChain_cons.mpr ⟨next, apart⟩⟩

theorem ne_nil_of_isLexeme (lexeme : isLexeme t) : t ≠ [] := (isLexeme_iff.mp lexeme).1

theorem isLexeme_cons (lexeme : isLexeme (c :: t)) :
    isNewline (c :: t) = isBreak c ∧ isBlankRun (c :: t) = isBlank c := by
  obtain ⟨breaks, blank, -⟩ := kind_of_mem lexeme List.mem_cons_self
  refine ⟨Bool.eq_iff_iff.mpr ⟨fun newline => ?_, breaks⟩,
    Bool.eq_iff_iff.mpr ⟨fun blanks => ?_, blank⟩⟩
  · exact isBreak_of_mem newline List.mem_cons_self
  · exact (isBlankRun_iff.mp blanks).2 c List.mem_cons_self

theorem WellCut.head?_flatten (cut : WellCut ts) :
    ts.flatten.head?.all isBreak = ts.head?.all isNewline ∧
      ts.flatten.head?.all (fun c => !isBlank c) = ts.head?.all fun t => !isBlankRun t := by
  match ts, cut with
  | [], _ => exact ⟨rfl, rfl⟩
  | t :: ts, cut =>
    have lexeme := (wellCut_cons.mp cut).1
    cases t with
    | nil => exact (ne_nil_of_isLexeme lexeme rfl).elim
    | cons c t =>
      obtain ⟨newline, blanks⟩ := isLexeme_cons lexeme
      simp [newline, blanks]

theorem staysApart_of_newline (newline : isNewline t) (other : isNewline u = false) :
    staysApart t u ∧ staysApart u t := by
  have plain : isBlankRun t = false ∧ isWordRun t = false := by
    rcases isNewline_iff.mp newline with rfl | rfl | rfl <;> decide
  have feed : u ≠ ['\n'] ∧ u ≠ ['\r'] := by
    constructor
    · rintro rfl
      cases other
    · rintro rfl
      cases other
  simp [staysApart, plain, feed]

theorem head?_of_isBlankRun (blanks : isBlankRun t) (next : ∀ u ∈ ts.head?, staysApart t u) :
    ts.head?.all fun u => !isBlankRun u := by
  cases head : ts.head? with
  | none => rfl
  | some u =>
    have apart := next u head
    simp only [staysApart, blanks, Bool.true_and, Bool.and_eq_true] at apart
    exact apart.1.1

theorem solid_of_isLexeme (lexeme : isLexeme t) (newline : isNewline t = false)
    (blanks : isBlankRun t = false) : ∀ c ∈ t, isBlank c = false ∧ isBreak c = false := by
  intro c member
  obtain ⟨breaks, blank, -⟩ := kind_of_mem lexeme member
  constructor
  · by_contra h
    simp [blank (eq_true_of_ne_false h)] at blanks
  · by_contra h
    simp [breaks (eq_true_of_ne_false h)] at newline

end Retouch.Text
