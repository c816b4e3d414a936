import Mathlib.Data.List.Basic
import Mathlib.Tactic.Common

namespace Tun2Socket.Make

/-- A Go string is a list of bytes. -/
abbrev Bytes := List UInt8

def SPACE : UInt8 := 32

def TAB : UInt8 := 9

def DOUBLE_QUOTE : UInt8 := 34

def SINGLE_QUOTE : UInt8 := 39

def BACKSLASH : UInt8 := 92

/-- The conversion of a byte to a string encodes the code point of that number. -/
def goString (c : UInt8) : Bytes :=
  if c.toNat < 128 then [c] else [UInt8.ofNat (192 + c.toNat / 64), UInt8.ofNat (128 + c.toNat % 64)]

inductive ParseState where
  | start
  | arg
  | quotes
  deriving DecidableEq

/-- The variables of the loop in parseCommandLine. -/
structure Splitter where
  args : List Bytes
  state : ParseState
  current : Bytes
  quote : Bytes
  escapeNext : Bool

namespace Splitter

/-- The loop starts as if an escape stood in front of the line. -/
def start : Splitter := ⟨[], .start, [], goString DOUBLE_QUOTE, true⟩

def push (s : Splitter) (c : UInt8) : Splitter := { s with current := s.current ++ goString c }

/-- The current word becomes an argument. -/
def flush (s : Splitter) : Splitter := { s with args := s.args ++ [s.current], current := [], state := .start }

/-- One turn of the loop. -/
def next (s : Splitter) (c : UInt8) : Splitter :=
  if s.state = .quotes then
    if goString c ≠ s.quote then s.push c else s.flush
  else if s.escapeNext then { s.push c with escapeNext := false }
  else if c = BACKSLASH then { s with escapeNext := true }
  else if c = DOUBLE_QUOTE ∨ c = SINGLE_QUOTE then { s with state := .quotes, quote := goString c }
  else if s.state = .arg then
    if c = SPACE ∨ c = TAB then s.flush else s.push c
  else if c ≠ SPACE ∧ c ≠ TAB then { s.push c with state := .arg }
  else s

/-- The loop over a part of the line. -/
def run (s : Splitter) (part : Bytes) : Splitter := part.foldl next s

end Splitter

def UNCLOSED_QUOTE : Bytes := "Unclosed quote in command line: ".toList.map fun c => UInt8.ofNat c.toNat

/-- What the loop leaves is the list of arguments, but for an open quote. -/
def Splitter.finish (s : Splitter) (command : Bytes) : Except Bytes (List Bytes) :=
  if s.state = .quotes then .error (UNCLOSED_QUOTE ++ command)
  else if s.current ≠ [] then .ok (s.args ++ [s.current])
  else .ok s.args

def parseCommandLine (command : Bytes) : Except Bytes (List Bytes) := (Splitter.start.run command).finish command

/-- Blanks separate words. -/
def Blank (part : Bytes) : Prop := ∀ c ∈ part, c = SPACE ∨ c = TAB

/-- A plain character stands for itself outside quotes. -/
def Plain (c : UInt8) : Prop := c ≠ SPACE ∧ c ≠ TAB ∧ c ≠ DOUBLE_QUOTE ∧ c ≠ SINGLE_QUOTE ∧ c ≠ BACKSLASH

/-- A word is written bare or between double quotes. -/
inductive Word where
  | bare (text : Bytes) (nonempty : text ≠ []) (plain : ∀ c ∈ text, Plain c)
  | quoted (text : Bytes) (unquoted : DOUBLE_QUOTE ∉ text)

namespace Word

def text : Word → Bytes
  | bare text _ _ => text
  | quoted text _ => text

def render : Word → Bytes
  | bare text _ _ => text
  | quoted text _ => DOUBLE_QUOTE :: (text ++ [DOUBLE_QUOTE])

end Word

/-- The words of a line, each with the blanks behind it. -/
abbrev Words := List (Word × Bytes)

namespace Words

def render : Words → Bytes
  | [] => []
  | (word, gap) :: rest => word.render ++ (gap ++ render rest)

/-- There are blanks between two words. -/
def Separated : Words → Prop
  | [] => True
  | (_, gap) :: rest => Blank gap ∧ (rest ≠ [] → gap ≠ []) ∧ Separated rest

def texts (words : Words) : List Bytes := words.map fun word => word.1.text

@[simp] theorem texts_cons (word : Word) (gap : Bytes) (rest : Words) :
    texts ((word, gap) :: rest) = word.text :: rest.texts := rfl

end Words

/-- A line has blanks in front of its words. -/
structure CommandLine where
  leading : Bytes
  words : Words
  blank : Blank leading
  separated : words.Separated

def CommandLine.render (line : CommandLine) : Bytes := line.leading ++ line.words.render

/-- The first word of a line that comes out whole. A single character goes into the next word. -/
def Words.StartsBare : Words → Prop
  | [] => True
  | (.bare text _ _, _) :: rest => rest = [] ∨ 2 ≤ text.length
  | (.quoted _ _, _) :: _ => False

def Ascii (text : Bytes) : Prop := ∀ c ∈ text, c.toNat < 128

/-- The lines that come out as they were rendered. -/
structure CommandLine.Splits (line : CommandLine) : Prop where
  leading : line.leading = []
  first : line.words.StartsBare
  ascii : ∀ text ∈ line.words.texts, Ascii text

section GoStrings

/-- The text that comes out of a word, byte by byte. -/
def widen (text : Bytes) : Bytes := text.flatMap goString

theorem goString_ascii {c : UInt8} (ascii : c.toNat < 128) : goString c = [c] := if_pos ascii

theorem goString_length (c : UInt8) : (goString c).length = if c.toNat < 128 then 1 else 2 := by
  unfold goString
  split <;> rfl

theorem goString_ne_nil (c : UInt8) : goString c ≠ [] := by
  unfold goString
  split <;> exact List.cons_ne_nil _ _

/-- Only the quote itself reads as the string of the quote. -/
theorem goString_eq_quote {c : UInt8} : goString c = [DOUBLE_QUOTE] ↔ c = DOUBLE_QUOTE := by
  constructor
  · intro same
    have one := congrArg List.length same
    rw [goString_length] at one
    split at one
    · rename_i ascii
      rw [goString_ascii ascii] at same
      exact (List.cons.inj same).1
    · cases one
  · rintro rfl
    rfl

@[simp] theorem widen_cons (c : UInt8) (text : Bytes) : widen (c :: text) = goString c ++ widen text :=
  List.flatMap_cons

theorem length_le_widen (text : Bytes) : text.length ≤ (widen text).length := by
  induction text with
  | nil => exact Nat.le_refl _
  | cons c rest ih =>
      have here := goString_length c
      rw [widen_cons, List.length_append, List.length_cons]
      split at here
      · omega
      · omega

/-- A text comes out as it is exactly when it is ASCII. -/
theorem widen_eq_iff (text : Bytes) : widen text = text ↔ Ascii text := by
  induction text with
  | nil => simp [widen, Ascii]
  | cons c rest ih =>
      rw [widen_cons, Ascii, List.forall_mem_cons]
      by_cases ascii : c.toNat < 128
      · rw [goString_ascii ascii, List.singleton_append, List.cons.injEq, eq_self, true_and, ih]
        exact (and_iff_right ascii).symm
      · have here := goString_length c
        have later := length_le_widen rest
        rw [if_neg ascii] at here
        refine iff_of_false (fun same => ?_) (fun both => ascii both.1)
        have whole := congrArg List.length same
        rw [List.length_append, List.length_cons] at whole
        omega

end GoStrings

namespace Splitter

variable {s : Splitter}

theorem run_append (s : Splitter) (first second : Bytes) : s.run (first ++ second) = (s.run first).run second :=
  List.foldl_append

@[simp] theorem run_nil (s : Splitter) : s.run [] = s := rfl

@[simp] theorem run_cons (s : Splitter) (c : UInt8) (rest : Bytes) : s.run (c :: rest) = (s.next c).run rest := rfl

/-- Between two words the loop skips blanks. -/
theorem run_blank (between : s.state = .start) (unescaped : s.escapeNext = false) {gap : Bytes} (blank : Blank gap) :
    s.run gap = s := by
  induction gap with
  | nil => rfl
  | cons c rest ih =>
      obtain ⟨here, later⟩ := List.forall_mem_cons.mp blank
      have skipped : s.next c = s := by
        rcases here with rfl | rfl
        · simp [next, between, unescaped, SPACE, BACKSLASH, DOUBLE_QUOTE, SINGLE_QUOTE]
        · simp [next, between, unescaped, TAB, BACKSLASH, DOUBLE_QUOTE, SINGLE_QUOTE]
      rw [run_cons, skipped, ih later]

/-- A plain character goes on with the word, or begins it. -/
theorem next_plain (outside : s.state ≠ .quotes) (unescaped : s.escapeNext = false) {c : UInt8} (plain : Plain c) :
    s.next c = { s.push c with state := .arg } := by
  obtain ⟨space, tab, double, single, backslash⟩ := plain
  cases state : s.state with
  | start => simp [next, state, unescaped, space, tab, double, single, backslash]
  | arg => simp [next, state, unescaped, space, tab, double, single, backslash, push]
  | quotes => exact absurd state outside

theorem run_plain (outside : s.state ≠ .quotes) (unescaped : s.escapeNext = false) {text : Bytes} (nonempty : text ≠ [])
    (plain : ∀ c ∈ text, Plain c) :
    s.run text = { s with state := .arg, current := s.current ++ widen text } := by
  induction text generalizing s with
  | nil => exact absurd rfl nonempty
  | cons c rest ih =>
      obtain ⟨here, later⟩ := List.forall_mem_cons.mp plain
      rw [run_cons, next_plain outside unescaped here, widen_cons]
      cases rest with
      | nil => simp [push, widen]
      | cons d more =>
          refine (@ih { s.push c with state := .arg } nofun unescaped (List.cons_ne_nil d more) later).trans ?_
          simp [push]

/-- Inside quotes every other character stands for itself. -/
theorem run_quoted (inside : s.state = .quotes) (quote : s.quote = [DOUBLE_QUOTE]) {text : Bytes}
    (unquoted : DOUBLE_QUOTE ∉ text) :
    s.run (text ++ [DOUBLE_QUOTE]) = { s with args := s.args ++ [s.current ++ widen text], current := [], state := .start } := by
  induction text generalizing s with
  | nil =>
      have closes : goString DOUBLE_QUOTE = s.quote := quote.symm
      simp [next, inside, closes, flush, widen]
  | cons c rest ih =>
      rw [List.mem_cons, not_or] at unquoted
      have differs : goString c ≠ s.quote := by
        rw [quote, ne_eq, goString_eq_quote]
        exact Ne.symm unquoted.1
      have pushed : s.next c = s.push c := by simp [next, inside, differs]
      rw [List.cons_append, run_cons, pushed]
      refine (@ih (s.push c) inside quote unquoted.2).trans ?_
      simp [push]

/-- What is left of the last word goes in front of the first of the next ones. -/
def prepend (current : Bytes) : List Bytes → List Bytes
  | [] => if current = [] then [] else [current]
  | text :: rest => (current ++ text) :: rest

@[simp] theorem prepend_cons (current text : Bytes) (rest : List Bytes) :
    prepend current (text :: rest) = (current ++ text) :: rest := rfl

@[simp] theorem prepend_nil (texts : List Bytes) : prepend [] texts = texts := by
  cases texts <;> rfl

/-- Between two words the loop reads the rest of the line as its words. -/
theorem run_words (between : s.state = .start) (unescaped : s.escapeNext = false) {words : Words}
    (separated : words.Separated) (command : Bytes) :
    (s.run words.render).finish command = .ok (s.args ++ prepend s.current (words.texts.map widen)) := by
  induction words generalizing s with
  | nil =>
      by_cases empty : s.current = []
      · simp [Words.render, Words.texts, finish, between, empty]
      · simp [Words.render, Words.texts, finish, between, empty, prepend]
  | cons word rest ih =>
      obtain ⟨word, gap⟩ := word
      obtain ⟨blank, apart, later⟩ := separated
      rw [Words.render, run_append, run_append]
      cases word with
      | quoted text unquoted =>
          have opened : s.next DOUBLE_QUOTE = { s with state := .quotes, quote := goString DOUBLE_QUOTE } := by
            simp [next, between, unescaped, DOUBLE_QUOTE, BACKSLASH]
          let ended : Splitter := ⟨s.args ++ [s.current ++ widen text], .start, [], goString DOUBLE_QUOTE, s.escapeNext⟩
          have closed : s.run (Word.quoted text unquoted).render = ended := by
            rw [Word.render, run_cons, opened, run_quoted rfl rfl unquoted]
          rw [closed, @run_blank ended rfl unescaped _ blank, @ih ended rfl unescaped later]
          simp [ended, Word.text]
      | bare text nonempty plain =>
          rw [Word.render, run_plain (by simp [between]) unescaped nonempty plain]
          cases gap with
          | nil =>
              obtain rfl : rest = [] := by
                by_contra more
                exact apart more rfl
              have filled : widen text ≠ [] := by
                intro empty
                have longer := length_le_widen text
                rw [empty, List.length_nil, Nat.le_zero, List.length_eq_zero_iff] at longer
                exact nonempty longer
              simp [Words.render, Words.texts, Word.text, finish, filled]
          | cons c more =>
              obtain ⟨here, skipped⟩ := List.forall_mem_cons.mp blank
              let ended : Splitter := ⟨s.args ++ [s.current ++ widen text], .start, [], s.quote, s.escapeNext⟩
              have ends : ({ s with state := .arg, current := s.current ++ widen text } : Splitter).next c = ended := by
                rcases here with rfl | rfl
                · simp [next, unescaped, flush, ended, SPACE, BACKSLASH, DOUBLE_QUOTE, SINGLE_QUOTE]
                · simp [next, unescaped, flush, ended, TAB, SPACE, BACKSLASH, DOUBLE_QUOTE, SINGLE_QUOTE]
              rw [run_cons, ends, @run_blank ended rfl unescaped _ skipped, @ih ended rfl unescaped later]
              simp [ended, Word.text]

/-- The first argument begins with a certain byte. -/
def Front (front : UInt8) (s : Splitter) : Prop := ∃ rest, (s.args ++ [s.current]).head? = some (front :: rest)

theorem Front.push {front : UInt8} (begins : s.Front front) (c : UInt8) : (s.push c).Front front := by
  obtain ⟨rest, head⟩ := begins
  unfold Front Splitter.push
  cases args : s.args with
  | nil =>
      obtain same : s.current = front :: rest := by simpa [args] using head
      exact ⟨rest ++ goString c, by simp [same]⟩
  | cons first others => exact ⟨rest, by simpa [args] using head⟩

theorem Front.flush {front : UInt8} (begins : s.Front front) : s.flush.Front front := by
  obtain ⟨rest, head⟩ := begins
  exact ⟨rest, by rw [Splitter.flush, List.head?_append, head, Option.some_or]⟩

/-- No turn of the loop changes the first byte. -/
theorem Front.next {front : UInt8} (begins : s.Front front) (c : UInt8) : (s.next c).Front front := by
  unfold Splitter.next
  split_ifs
  · exact begins.push c
  · exact begins.flush
  · exact begins.push c
  · exact begins
  · exact begins
  · exact begins.flush
  · exact begins.push c
  · exact begins.push c
  · exact begins

theorem Front.run {front : UInt8} (begins : s.Front front) (part : Bytes) : (s.run part).Front front := by
  induction part generalizing s with
  | nil => exact begins
  | cons c rest ih => exact ih (begins.next c)

theorem Front.finish {front : UInt8} (begins : s.Front front) {command : Bytes} {result : List Bytes}
    (finished : s.finish command = .ok result) : ∃ rest, result.head? = some (front :: rest) := by
  obtain ⟨rest, head⟩ := begins
  unfold Splitter.finish at finished
  split_ifs at finished with open' filled
  · obtain rfl := Except.ok.inj finished
    exact ⟨rest, head⟩
  · obtain rfl := Except.ok.inj finished
    rw [not_not] at filled
    cases args : s.args with
    | nil => simp [args, filled] at head
    | cons first others => exact ⟨rest, by simpa [args] using head⟩

end Splitter

/-- The first character of a line stands for itself, whatever it is. -/
theorem parseCommandLine_cons (c : UInt8) (rest : Bytes) :
    parseCommandLine (c :: rest) =
      ((⟨[], .start, goString c, goString DOUBLE_QUOTE, false⟩ : Splitter).run rest).finish (c :: rest) := rfl

theorem map_widen_eq_iff (texts : List Bytes) : texts.map widen = texts ↔ ∀ text ∈ texts, Ascii text := by
  induction texts with
  | nil => simp
  | cons text rest ih => rw [List.map_cons, List.cons.injEq, widen_eq_iff, ih, List.forall_mem_cons]

/-- A word with something in front of it is not that word. -/
theorem prepend_ne {current : Bytes} (nonempty : current ≠ []) (texts : List Bytes) :
    Splitter.prepend current (texts.map widen) ≠ texts := by
  have some_byte := List.length_pos_iff.mpr nonempty
  cases texts with
  | nil => simp [Splitter.prepend, nonempty]
  | cons text rest =>
      intro same
      have first := congrArg List.length (List.cons.inj same).1
      have longer := length_le_widen text
      rw [List.length_append] at first
      omega

namespace CommandLine

/-- A line whose first word is quoted gives an error, or an argument with the quote in it. -/
theorem quoted_first {text gap : Bytes} {rest : Words} (unquoted : DOUBLE_QUOTE ∉ text) :
    parseCommandLine (Words.render ((.quoted text unquoted, gap) :: rest)) ≠
      .ok (Words.texts ((.quoted text unquoted, gap) :: rest)) := by
  intro parsed
  rw [Words.render, Word.render, List.cons_append, parseCommandLine_cons] at parsed
  have begins : (⟨[], .start, goString DOUBLE_QUOTE, goString DOUBLE_QUOTE, false⟩ : Splitter).Front DOUBLE_QUOTE := ⟨[], rfl⟩
  obtain ⟨tail, head⟩ := (begins.run _).finish parsed
  have same : text = DOUBLE_QUOTE :: tail := Option.some.inj head
  rw [same] at unquoted
  exact unquoted List.mem_cons_self

/-- A line whose first word is bare loses a single character to the next word, and otherwise keeps its words. -/
theorem bare_first {text gap : Bytes} {rest : Words} (nonempty : text ≠ []) (plain : ∀ c ∈ text, Plain c)
    (separated : Words.Separated ((.bare text nonempty plain, gap) :: rest)) :
    parseCommandLine (Words.render ((.bare text nonempty plain, gap) :: rest)) = .ok (text :: rest.texts) ↔
      (rest = [] ∨ 2 ≤ text.length) ∧ ∀ word ∈ text :: rest.texts, Ascii word := by
  cases text with
  | nil => exact absurd rfl nonempty
  | cons c more =>
      let opened : Splitter := ⟨[], .start, goString c, goString DOUBLE_QUOTE, false⟩
      have first (tail : Bytes) : parseCommandLine (c :: tail) = (opened.run tail).finish (c :: tail) := rfl
      cases more with
      | nil =>
          obtain ⟨blank, -, later⟩ := separated
          have parsed : parseCommandLine (c :: (gap ++ rest.render)) =
              .ok (Splitter.prepend (goString c) (rest.texts.map widen)) := by
            rw [first, Splitter.run_append, @Splitter.run_blank opened rfl rfl _ blank,
              @Splitter.run_words opened rfl rfl _ later]
            rfl
          rw [Words.render, Word.render, List.cons_append, List.nil_append, parsed, Except.ok.injEq]
          cases rest with
          | nil =>
              have one := widen_eq_iff [c]
              simp only [widen, List.flatMap_singleton] at one
              simp [Words.texts, Splitter.prepend, goString_ne_nil, one]
          | cons next others =>
              refine iff_of_false (fun same => ?_) (fun both => ?_)
              · have count := congrArg List.length same
                simp [Words.texts] at count
              · simp at both
      | cons d others =>
          let shorter : Word := .bare (d :: others) (List.cons_ne_nil d others) fun e member => plain e (List.mem_cons_of_mem c member)
          have apart : Words.Separated ((shorter, gap) :: rest) := separated
          have parsed : parseCommandLine (c :: Words.render ((shorter, gap) :: rest)) =
              .ok (((c :: d :: others) :: rest.texts).map widen) := by
            rw [first, @Splitter.run_words opened rfl rfl _ apart]
            rfl
          change parseCommandLine (c :: Words.render ((shorter, gap) :: rest)) = _ ↔ _
          rw [parsed, Except.ok.injEq, map_widen_eq_iff]
          simp

/-- The splitter gives back the words of a line exactly when it begins with a bare word that is long enough, and is ASCII. -/
theorem splits_iff (line : CommandLine) : parseCommandLine line.render = .ok line.words.texts ↔ line.Splits := by
  obtain ⟨leading, words, blank, separated⟩ := line
  have parts : (⟨leading, words, blank, separated⟩ : CommandLine).Splits ↔
      leading = [] ∧ words.StartsBare ∧ ∀ text ∈ words.texts, Ascii text :=
    ⟨fun splits => ⟨splits.leading, splits.first, splits.ascii⟩, fun all => ⟨all.1, all.2.1, all.2.2⟩⟩
  rw [parts, CommandLine.render]
  cases leading with
  | cons c rest =>
      obtain ⟨-, skipped⟩ := List.forall_mem_cons.mp blank
      let opened : Splitter := ⟨[], .start, goString c, goString DOUBLE_QUOTE, false⟩
      have parsed : parseCommandLine (c :: (rest ++ words.render)) = .ok (Splitter.prepend (goString c) (words.texts.map widen)) := by
        rw [parseCommandLine_cons, Splitter.run_append, @Splitter.run_blank opened rfl rfl _ skipped,
          @Splitter.run_words opened rfl rfl _ separated]
        rfl
      rw [List.cons_append, parsed, Except.ok.injEq]
      exact iff_of_false (prepend_ne (goString_ne_nil c) _) (fun all => absurd all.1 (List.cons_ne_nil c rest))
  | nil =>
      rw [List.nil_append]
      cases words with
      | nil => simp [Words.render, Words.texts, Words.StartsBare, parseCommandLine, Splitter.start, Splitter.finish]
      | cons word rest =>
          obtain ⟨word, gap⟩ := word
          cases word with
          | quoted text unquoted => exact iff_of_false (quoted_first unquoted) (fun all => all.2.1)
          | bare text nonempty plain =>
              rw [Words.texts_cons, Word.text, bare_first nonempty plain separated]
              simp [Words.StartsBare]

def quotedLine : CommandLine where
  leading := []
  words := [(.quoted [97] (by decide), [])]
  blank := nofun
  separated := ⟨nofun, fun more => absurd rfl more, trivial⟩

/-- A line of one quoted word leaves its closing quote open. -/
theorem quoted_line_unclosed : quotedLine.render = [34, 97, 34] ∧ quotedLine.words.texts = [[97]] ∧
    parseCommandLine quotedLine.render = .error (UNCLOSED_QUOTE ++ [34, 97, 34]) ∧
    parseCommandLine quotedLine.render ≠ .ok quotedLine.words.texts := by
  have unclosed : parseCommandLine quotedLine.render = .error (UNCLOSED_QUOTE ++ [34, 97, 34]) := rfl
  refine ⟨rfl, rfl, unclosed, ?_⟩
  rw [unclosed]
  exact nofun

end CommandLine

end Tun2Socket.Make
