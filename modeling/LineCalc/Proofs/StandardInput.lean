import LineCalc.Proofs.Transcripts

/-!
# Standard Input

A session writes the same about an expression, whether it stands among the arguments or
is the first line of the input.

An expression among the arguments is a text, and one on the input has to be found in a
list of bytes. Three steps lead from the one to the other. The bytes are cut behind the
first line feed, those in front are read as UTF-8, and the marks of the end of the line
are taken away. Each step could lose something. A line feed is a byte of its own, which
is no part of any other character, so the cut leaves the text whole. Of what follows it,
nothing is read, so it does not have to be UTF-8. And the last step takes away all
carriage returns at the end, so a text that ends in one is not among those that can be
given on the input, but one with a carriage return in it is.

## Main definitions

* `bytes`: The bytes of a text.
* `EndsLine`: What follows a line.
* `IsFirstLine`: The bytes that an expression is taken from.
* `Session.start`: A session that is started with some arguments.
* `Session.withPrompt`: A transcript with the prompt in front.

## Theorems

* `firstLine?_bytes_append`: A line is read back from its bytes, whatever follows.
* `firstLine?_eq_none`: A first line that is no text is not read.
* `Invocation.ofArguments_verbatim`: Behind `--` stands the expression.
* `Session.start_firstLine`: A line of input is as good as an argument.
-/

namespace LineCalc

/-- The bytes of a text. -/
def bytes (text : String) : List UInt8 :=
  text.toUTF8.data.toList

/-- What follows a line of input: nothing, or a mark of its end, and any bytes behind that. -/
inductive EndsLine : List UInt8 → Prop where
  | endOfInput : EndsLine []
  | lineFeed (rest : List UInt8) : EndsLine (10 :: rest)
  | carriageReturn (rest : List UInt8) : EndsLine (13 :: 10 :: rest)

/-- The bytes up to and including the first line feed, or all of them if there is none. -/
def IsFirstLine (first input : List UInt8) : Prop :=
  (∃ front rest, 10 ∉ front ∧ first = front ++ [10] ∧ input = first ++ rest) ∨
    (10 ∉ input ∧ first = input)

/-- What has no line feed in it is read on. -/
theorem upToLineFeed_append {front : List UInt8} (h : 10 ∉ front) (rest : List UInt8) :
    upToLineFeed (front ++ rest) = front ++ upToLineFeed rest := by
  induction front with
  | nil => rfl
  | cons byte front ih =>
      rw [List.mem_cons, not_or] at h
      rw [List.cons_append, upToLineFeed, if_neg (Ne.symm h.1), ih h.2, List.cons_append]

/-- The first line is what is read, with its line feed. -/
theorem IsFirstLine.upToLineFeed_eq {first input : List UInt8} (h : IsFirstLine first input) :
    upToLineFeed input = first := by
  rcases h with ⟨front, rest, hfront, rfl, rfl⟩ | ⟨hinput, rfl⟩
  · rw [List.append_assoc, upToLineFeed_append hfront]
    rfl
  · have hall := upToLineFeed_append hinput []
    rwa [List.append_nil, upToLineFeed, List.append_nil] at hall

section

variable {text : String}

/-- The bytes of a text are the codes of its characters, one after the other. -/
theorem bytes_eq (text : String) : bytes text = text.toList.flatMap String.utf8EncodeChar := by
  rw [bytes, String.toUTF8_eq_toByteArray, ← String.utf8Encode_toList, List.utf8Encode,
    List.data_toByteArray]

theorem bytes_append (text text' : String) : bytes (text ++ text') = bytes text ++ bytes text' := by
  rw [bytes_eq, bytes_eq, bytes_eq, String.toList_append, List.flatMap_append]

/-- All bytes of a code that is longer than one byte are large. -/
theorem le_of_mem_utf8EncodeChar {ch : Char} (hch : 127 < ch.val.toNat) :
    ∀ byte ∈ String.utf8EncodeChar ch, 128 ≤ byte.toNat := by
  have hlong : ¬ ch.val.toNat ≤ 127 := Nat.not_le.2 hch
  simp only [String.utf8EncodeChar, if_neg hlong]
  -- There are codes of two, three and four bytes.
  split
  · simp only [List.forall_mem_cons, List.not_mem_nil, IsEmpty.forall_iff, implies_true, and_true,
      UInt8.toNat_ofNat']
    omega
  · split
    · simp only [List.forall_mem_cons, List.not_mem_nil, IsEmpty.forall_iff, implies_true,
        and_true, UInt8.toNat_ofNat']
      omega
    · simp only [List.forall_mem_cons, List.not_mem_nil, IsEmpty.forall_iff, implies_true,
        and_true, UInt8.toNat_ofNat']
      omega

/-- No character but the line feed has the byte of a line feed in it. -/
theorem eq_lineFeed_of_mem {ch : Char} (h : 10 ∈ String.utf8EncodeChar ch) : ch = '\n' := by
  -- A code of one byte is the number of its character. Longer codes have large bytes only.
  by_cases hch : 127 < ch.val.toNat
  · exact absurd (le_of_mem_utf8EncodeChar hch 10 h) (by decide)
  · have hcode : String.utf8EncodeChar ch = [UInt8.ofNat ch.val.toNat] := if_pos (Nat.not_lt.1 hch)
    rw [hcode, List.mem_singleton] at h
    have hlow : (10 : UInt8).toNat = ch.val.toNat % 256 := congrArg UInt8.toNat h
    have hten : (10 : UInt8).toNat = 10 := rfl
    have heq : ch.toNat = '\n'.toNat := by
      change ch.val.toNat = 10
      omega
    exact Char.toNat_inj.1 heq

/-- A text without a line feed has no such byte. -/
theorem lineFeed_not_mem_bytes (h : '\n' ∉ text.toList) : 10 ∉ bytes text := by
  rw [bytes_eq, List.mem_flatMap]
  rintro ⟨ch, hch, hbyte⟩
  exact h (eq_lineFeed_of_mem hbyte ▸ hch)

theorem fromUTF8?_bytes (text : String) :
    String.fromUTF8? (ByteArray.mk (bytes text).toArray) = some text := by
  rw [bytes, Array.toArray_toList, String.toUTF8_eq_toByteArray, String.fromUTF8?,
    dif_pos text.isValidUTF8]
  rfl

theorem fromUTF8?_eq_none {input : List UInt8} (h : ∀ text, bytes text ≠ input) :
    String.fromUTF8? (ByteArray.mk input.toArray) = none := by
  rw [String.fromUTF8?, dif_neg]
  intro hvalid
  exact h (String.fromUTF8 _ hvalid) rfl

end

/-- Line feeds and carriage returns are taken away behind a text that ends in something else. -/
theorem trimLineEnd_append {line mark : String} (hmark : ∀ ch ∈ mark.toList, ch = '\n' ∨ ch = '\r')
    (hline : ∀ ch ∈ line.toList.getLast?, ch ≠ '\n' ∧ ch ≠ '\r') :
    trimLineEnd (line ++ mark) = line := by
  have hmarks : ∀ ch ∈ mark.toList.reverse, decide (ch = '\n' ∨ ch = '\r') = true := by
    intro ch hch
    rw [List.mem_reverse] at hch
    exact decide_eq_true (hmark ch hch)
  -- The trimming starts from the end, and stops at the last character of the line.
  have hrest : line.toList.reverse.dropWhile (fun ch => decide (ch = '\n' ∨ ch = '\r')) =
      line.toList.reverse := by
    rw [← List.head?_reverse] at hline
    cases hchars : line.toList.reverse with
    | nil => rfl
    | cons ch rest =>
        rw [hchars] at hline
        have hch := hline ch rfl
        rw [List.dropWhile_cons, if_neg]
        rw [decide_eq_true_eq, not_or]
        exact hch
  rw [trimLineEnd, String.toList_append, List.reverse_append, List.dropWhile_append_of_pos hmarks,
    hrest, List.reverse_reverse, String.ofList_toList]

/-- What is read behind a line is the mark of its end. -/
theorem EndsLine.exists_mark {ending : List UInt8} (h : EndsLine ending) :
    ∃ mark : String, (∀ ch ∈ mark.toList, ch = '\n' ∨ ch = '\r') ∧
      upToLineFeed ending = bytes mark := by
  cases h with
  | endOfInput => exact ⟨"", fun ch hch => absurd hch List.not_mem_nil, rfl⟩
  | lineFeed rest => exact ⟨"\n", List.forall_mem_singleton.2 (Or.inl rfl), rfl⟩
  | carriageReturn rest =>
      exact ⟨"\r\n", List.forall_mem_cons.2 ⟨Or.inr rfl, List.forall_mem_singleton.2 (Or.inl rfl)⟩,
        rfl⟩

/-- A line is read back from its bytes, whatever stands behind its end. -/
theorem firstLine?_bytes_append {line : String} (hline : '\n' ∉ line.toList)
    (hreturn : line.toList.getLast? ≠ some '\r') {ending : List UInt8} (h : EndsLine ending) :
    firstLine? (bytes line ++ ending) = some line := by
  rcases h.exists_mark with ⟨mark, hmark, hread⟩
  have hlast : ∀ ch ∈ line.toList.getLast?, ch ≠ '\n' ∧ ch ≠ '\r' := by
    intro ch hch
    constructor
    · rintro rfl
      exact hline (List.mem_of_getLast? hch)
    · rintro rfl
      exact hreturn hch
  rw [firstLine?, upToLineFeed_append (lineFeed_not_mem_bytes hline), hread, ← bytes_append,
    fromUTF8?_bytes, Option.map_some, trimLineEnd_append hmark hlast]

/-- A first line that is no text is not read. -/
theorem firstLine?_eq_none {first input : List UInt8} (h : IsFirstLine first input)
    (hfirst : ∀ text, bytes text ≠ first) : firstLine? input = none := by
  rw [firstLine?, h.upToLineFeed_eq, fromUTF8?_eq_none hfirst, Option.map_none]

namespace Options

/-- Behind the flags and `--` stand expressions. By induction on the flags: each of them is taken,
    because all are. -/
theorem readAll_verbatim {s : Subcommand} {o o' : Options} {arguments : List String}
    (hdashes : "--" ∉ arguments) (h : readAll s o arguments = .ok o') (rest : List String) :
    readAll s o (arguments ++ "--" :: rest) = rest.foldlM takeExpression o' := by
  -- The flags come first, and `--` is none of them.
  induction arguments generalizing o with
  | nil =>
      cases h
      rw [List.nil_append, readAll, if_pos rfl]
  | cons argument arguments ih =>
      rw [List.mem_cons, not_or] at hdashes
      rw [readAll, if_neg (Ne.symm hdashes.1)] at h
      rw [List.cons_append, readAll, if_neg (Ne.symm hdashes.1)]
      cases hread : o.read s argument with
      | error e =>
          rw [hread] at h
          cases h
      | ok next =>
          rw [hread] at h
          exact ih hdashes.2 h

end Options

namespace Invocation

variable {options : List String} {prompt caret : Bool}

/-- The flags of `eval`, if there is no expression among its arguments. -/
theorem readAll_of_ofArguments (h : ofArguments ("eval" :: options) = .eval none prompt caret) :
    Options.readAll .eval {} options = .ok ⟨none, prompt, caret⟩ := by
  have hcommand : ofCommand .eval options = .eval none prompt caret := h
  rw [ofCommand] at hcommand
  cases hread : Options.readAll .eval {} options with
  | error e =>
      rw [hread] at hcommand
      cases e <;> cases hcommand
  | ok o =>
      rw [hread] at hcommand
      rcases o with ⟨expression, wanted, marked⟩
      cases hcommand
      rfl

/-- Behind `--` stands the expression, whatever it looks like. -/
theorem ofArguments_verbatim (hdashes : "--" ∉ options)
    (h : ofArguments ("eval" :: options) = .eval none prompt caret) (line : String) :
    ofArguments ("eval" :: (options ++ ["--", line])) = .eval (some line) prompt caret := by
  have hread := Options.readAll_verbatim hdashes (readAll_of_ofArguments h) [line]
  change ofCommand .eval (options ++ ["--", line]) = _
  rw [ofCommand, hread]
  rfl

end Invocation

namespace Session

variable {line : String} {input : List UInt8}

/-- A session that is started with some arguments. -/
def start (arguments : List String) (input : List UInt8) : Checked Transcript :=
  run (Invocation.ofArguments arguments) input

/-- A transcript with the prompt in front, if it is wanted. -/
def withPrompt (prompt : Bool) (t : Transcript) : Transcript :=
  { t with stdout := (if prompt then printed [promptLine] else "") ++ t.stdout }

theorem preamble_eval (prompt caret : Bool) :
    preamble (.eval none prompt caret) = if prompt then printed [promptLine] else "" := by
  cases prompt <;> rfl

/-- A session that writes nothing before it reads. -/
theorem run_eq_response {invocation : Invocation} (h : preamble invocation = "") :
    run invocation input = response invocation input := by
  rw [run, h]
  cases response invocation input with
  | error fault => rfl
  | ok t =>
      change Except.ok { t with stdout := "" ++ t.stdout } = Except.ok t
      rw [String.empty_append]

/-- What is written in front of the answer depends on the prompt alone. -/
theorem run_eval (prompt caret : Bool) (input : List UInt8) :
    run (.eval none prompt caret) input =
      (withLine none input fun line => evalLine line caret).map (withPrompt prompt) := by
  rw [run, preamble_eval, response]
  cases withLine none input fun line => evalLine line caret <;> rfl

/-- A line whose length has a successor gets an answer. -/
theorem exists_evalLine (h : line.length + 1 < Checked.limit) (caret : Bool) :
    ∃ t, evalLine line caret = .ok t := by
  rcases exists_fits (by omega : line.length < Checked.limit) with ⟨l, hl, hfits⟩
  cases houtcome : (Evaluation.ofLexed l).outcome with
  | ok v => exact ⟨_, evalLine_of_value hl houtcome caret⟩
  | error r =>
      rcases evalLine_of_rejection hl hfits h houtcome with ⟨_, _, _, -, -, -, hprinted⟩
      exact ⟨_, hprinted caret⟩

/-- A line of input is as good as the same text among the arguments, and what follows it is not
    looked at. In front of the answer there is the prompt, if it is wanted. If the first line of
    the input is no text, the session says so and writes nothing else but the prompt. -/
theorem start_firstLine :
    (∀ (line : String) (ending input : List UInt8), '\n' ∉ line.toList →
      line.toList.getLast? ≠ some '\r' → EndsLine ending →
      (∀ (options options' : List String) (prompt prompt' caret : Bool), "--" ∉ options' →
        Invocation.ofArguments ("eval" :: options) = .eval none prompt caret →
        Invocation.ofArguments ("eval" :: options') = .eval none prompt' caret →
        start ("eval" :: options) (bytes line ++ ending) =
          (start ("eval" :: (options' ++ ["--", line])) input).map (withPrompt prompt) ∧
        (line.length + 1 < Checked.limit →
          ∃ t, start ("eval" :: (options' ++ ["--", line])) input = .ok t)) ∧
      start ["tokens"] (bytes line ++ ending) = start ["tokens", "--", line] input ∧
      (line.length < Checked.limit → ∃ t, start ["tokens", "--", line] input = .ok t)) ∧
    (∀ first input : List UInt8, IsFirstLine first input → (∀ text, bytes text ≠ first) →
      (∀ (options : List String) (prompt caret : Bool),
        Invocation.ofArguments ("eval" :: options) = .eval none prompt caret →
        start ("eval" :: options) input =
          .ok ⟨1, if prompt then printed [promptLine] else "", unreadable⟩) ∧
      start ["tokens"] input = .ok ⟨1, "", unreadable⟩) := by
  have htokens : ∀ input, start ["tokens"] input = withLine none input tokensLine :=
    fun input => run_eq_response rfl
  constructor
  · intro line ending input hline hreturn hending
    have hread := firstLine?_bytes_append hline hreturn hending
    have hlisted : start ["tokens", "--", line] input = tokensLine line := run_eq_response rfl
    refine ⟨?_, ?_, ?_⟩
    · intro options options' prompt prompt' caret hdashes hoptions hoptions'
      -- A line among the arguments is answered without a prompt, as it is not asked for.
      have hgiven : start ("eval" :: (options' ++ ["--", line])) input = evalLine line caret := by
        rw [start, Invocation.ofArguments_verbatim hdashes hoptions']
        exact run_eq_response rfl
      rw [hgiven, start, hoptions, run_eval, withLine, hread]
      exact ⟨rfl, fun hlength => exists_evalLine hlength caret⟩
    · rw [hlisted, htokens, withLine, hread]
    · intro hlength
      rw [hlisted]
      rcases exists_fits hlength with ⟨l, hl, -⟩
      rcases status_tokensLine hl with ⟨t, ht, -⟩
      exact ⟨t, ht⟩
  · intro first input hfirst htext
    have hread := firstLine?_eq_none hfirst htext
    constructor
    · intro options prompt caret hoptions
      rw [start, hoptions, run_eval, withLine, hread]
      cases prompt <;> rfl
    · rw [htokens, withLine, hread]

/-- The line `1\ré` comes with a prompt, and with bytes behind it that are no text. The carriage
    return in it is reported, and the one behind it is not. A line that starts with the byte 255
    is not read. -/
theorem start_firstLine_bytes :
    ('\n' ∉ "1\ré".toList ∧ "1\ré".toList.getLast? ≠ some '\r' ∧ EndsLine [13, 10, 255] ∧
      "1\ré".length + 1 < Checked.limit ∧ "--" ∉ ["--caret"] ∧
      Invocation.ofArguments ["eval", "-pc"] = .eval none true true ∧
      Invocation.ofArguments ["eval", "--caret"] = .eval none false true) ∧
    (IsFirstLine [255, 10] [255, 10, 49] ∧ ∀ text, bytes text ≠ [255, 10]) ∧
    (∃ t, start ["eval", "--caret", "--", "1\ré"] [] = .ok t ∧
      start ["eval", "-pc"] (bytes "1\ré" ++ [13, 10, 255]) = .ok (withPrompt true t)) ∧
    (∃ t, start ["tokens", "--", "1\ré"] [] = .ok t ∧
      start ["tokens"] (bytes "1\ré" ++ [13, 10, 255]) = .ok t ∧
      t.stdout = printed ["1 Number", "eof EndOfInput",
        "Lexical Error at position 2 illegal character: \r",
        "Lexical Error at position 3 illegal character: é"]) ∧
    start ["eval", "-pc"] [255, 10, 49] = .ok ⟨1, "Enter an arithmetic expression\n", unreadable⟩ ∧
    start ["tokens"] [255, 10, 49] = .ok ⟨1, "", unreadable⟩ := by
  have hline : '\n' ∉ "1\ré".toList := by decide
  have hreturn : "1\ré".toList.getLast? ≠ some '\r' := by decide
  have hending : EndsLine [13, 10, 255] := .carriageReturn [255]
  have hlength : "1\ré".length + 1 < Checked.limit := by decide
  have hdashes : "--" ∉ ["--caret"] := by decide
  have hoptions : Invocation.ofArguments ["eval", "-pc"] = .eval none true true := by decide
  have hoptions' : Invocation.ofArguments ["eval", "--caret"] = .eval none false true := by decide
  have hfirst : IsFirstLine [255, 10] [255, 10, 49] := Or.inl ⟨[255], [49], by decide, rfl, rfl⟩
  have htext : ∀ text, bytes text ≠ [255, 10] := by
    intro text htext
    have hread := fromUTF8?_bytes text
    rw [htext] at hread
    cases hread
  rcases start_firstLine with ⟨hreadable, hunreadable⟩
  rcases hreadable _ _ [] hline hreturn hending with ⟨heval, htokens, hlisting⟩
  rcases heval _ _ _ _ _ hdashes hoptions hoptions' with ⟨hsame, hgiven⟩
  rcases hunreadable _ _ hfirst htext with ⟨hrefused, hrefused'⟩
  refine ⟨⟨hline, hreturn, hending, hlength, hdashes, hoptions, hoptions'⟩, ⟨hfirst, htext⟩,
    ?_, ?_, hrefused _ _ _ hoptions, hrefused'⟩
  · rcases hgiven hlength with ⟨t, ht⟩
    refine ⟨t, ht, ?_⟩
    exact hsame.trans (congrArg (Except.map (withPrompt true)) ht)
  · rcases hlisting (by omega) with ⟨t, ht⟩
    refine ⟨t, ht, htokens.trans ht, ?_⟩
    have hlisted : start ["tokens", "--", "1\ré"] [] = tokensLine "1\ré" := run_eq_response rfl
    have hprinted : (tokensLine "1\ré").map Transcript.stdout = .ok (printed ["1 Number",
        "eof EndOfInput", "Lexical Error at position 2 illegal character: \r",
        "Lexical Error at position 3 illegal character: é"]) := rfl
    rw [← hlisted, ht] at hprinted
    exact Except.ok.inj hprinted

end Session

end LineCalc
