import LineCalc.Proofs.Grammar.Precedence
import LineCalc.Proofs.Transcripts
import LineCalc.Proofs.Pointing

/-!
# Listing

What a listing of tokens tells about its line.

A listing has a line for each token and, behind the line of the end marker, one for each
illegal text. Nothing in them looks like the end of a line, unless the line itself had
one in it, so a listing can be taken apart again. A line about a token has a space behind
the text of the token, and no text of a token holds a space. A line about an illegal text
has a space behind the position. So each line can be read back, and what a listing does
not tell are the columns of the tokens.

It tells an operator as well, although it names only its kind, because the text of an
operator is the operator. And it tells where the tokens stop, because the end marker has a
kind of its own.

## Main definitions

* `Listing.fields`: What stands between the spaces of a line.
* `Listing.operator?`: The operator that a text and a kind stand for.
* `Lexed.listing`: The lines of a listing.

## Theorems

* `Session.split_printed`: Lines of output can be told apart.
* `Listing.fields_dump`, `Listing.map_dump_eq_iff`: The line of a token can be read back.
* `LexicalError.message_inj`: The line of an illegal text can be read back.
* `Lexed.listing_eq_iff`: Which scans have one listing.
* `Session.tokensLine_tells`: What a listing of tokens tells.
-/

namespace LineCalc

open Findings

namespace Session

/-- Printed lines that hold no line feed are the pieces between the line feeds. Nothing is
    left behind the last one. -/
theorem split_printed {lines : List String} (h : ∀ line ∈ lines, '\n' ∉ line.toList) :
    ((printed lines).split '\n').toList.map String.Slice.copy = lines ++ [""] := by
  rw [String.toList_split_char]
  induction lines with
  | nil => rfl
  | cons line lines ih =>
      rcases List.forall_mem_cons.1 h with ⟨hline, hlines⟩
      have hsplit : (printed (line :: lines)).toList =
          line.toList ++ '\n' :: (printed lines).toList := by
        rw [printed, List.map_cons, String.join_cons, String.toList_append, String.toList_append,
          List.append_assoc]
        rfl
      rw [hsplit, List.splitOn_append_cons_self_of_not_mem hline, List.map_cons, ih hlines,
        String.ofList_toList]
      rfl

end Session

/-- Two texts with the same separator, which is in neither of them before, are cut by it into the
    same pieces. -/
theorem pieces_eq {α : Type} [BEq α] [LawfulBEq α] {a : α} {xs ys us vs : List α} (hxs : a ∉ xs)
    (hus : a ∉ us) (h : xs ++ a :: ys = us ++ a :: vs) : xs = us ∧ ys = vs := by
  have hsplit := congrArg (List.splitOn a) h
  rw [List.splitOn_append_cons_self_of_not_mem hxs, List.splitOn_append_cons_self_of_not_mem hus,
    List.cons.injEq] at hsplit
  rw [hsplit.1, List.append_cancel_left_eq, List.cons.injEq] at h
  exact ⟨hsplit.1, h.2⟩

/-- What is put together from two parts is the same for two lists with the same parts. -/
theorem map_eq_of_parts {α β γ δ : Type} {f : α → δ} {p : α → β} {q : α → γ} (join : β → γ → δ)
    (hf : ∀ a, f a = join (p a) (q a)) {xs ys : List α} (hp : xs.map p = ys.map p)
    (hq : xs.map q = ys.map q) : xs.map f = ys.map f := by
  have hjoin : ∀ zs : List α, zs.map f = List.zipWith join (zs.map p) (zs.map q) := by
    intro zs
    rw [List.zipWith_map, List.zipWith_self]
    exact List.map_congr_left fun a _ => hf a
  rw [hjoin, hjoin, hp, hq]

namespace Listing

/-- What stands between the spaces of a line. -/
def fields (line : String) : List String :=
  (line.split ' ').toList.map String.Slice.copy

/-- The operator that a token with a text and a kind stands for. -/
def operator? (text kind : String) : Option Operator :=
  if kind = "Operator" then text.toList.head?.bind Operator.ofChar? else none

/-- The operator of a token can be told from its text and its kind. -/
theorem operator?_eq (t : Token) : t.operator? = operator? t.text t.kind := by
  rcases t with ⟨⟨text, span⟩ | ⟨op, column⟩⟩ | n
  · rfl
  · -- The text of an operator is its sign.
    have htext : op.char.toString.toList = [op.char] := String.toList_singleton op.char
    change some op = op.char.toString.toList.head?.bind Operator.ofChar?
    rw [htext, List.head?_cons, Option.bind_some, Operator.ofChar?_char]
  · rfl

theorem toList_dump (t : Token) : t.dump.toList = t.text.toList ++ ' ' :: t.kind.toList := by
  rw [Token.dump, String.toList_append, String.toList_append, List.append_assoc]
  rfl

/-- The name of a kind is one word. -/
theorem isAlpha_of_mem_kind {t : Token} {c : Char} (h : c ∈ t.kind.toList) : c.isAlpha = true := by
  rcases t with ⟨⟨text, span⟩ | ⟨op, column⟩⟩ | n
  · exact List.all_eq_true.1 (rfl : "Number".toList.all Char.isAlpha = true) c h
  · exact List.all_eq_true.1 (rfl : "Operator".toList.all Char.isAlpha = true) c h
  · exact List.all_eq_true.1 (rfl : "EndOfInput".toList.all Char.isAlpha = true) c h

/-- The line of a token holds its text and its kind. -/
theorem fields_dump {t : Token} (h : ' ' ∉ t.text.toList) : fields t.dump = [t.text, t.kind] := by
  -- The kind ends the line, as there is no further space.
  have hkind : ' ' ∉ t.kind.toList := fun hmem => by cases isAlpha_of_mem_kind hmem
  rw [fields, String.toList_split_char, toList_dump, List.splitOn_append_cons_self_of_not_mem h,
    List.splitOn_eq_singleton hkind, List.map_cons, List.map_singleton, String.ofList_toList,
    String.ofList_toList]

/-- The lines of tokens without spaces tell their texts and their kinds, and nothing else. -/
theorem map_dump_eq_iff {ts us : List Token} (hts : ∀ t ∈ ts, ' ' ∉ t.text.toList)
    (hus : ∀ u ∈ us, ' ' ∉ u.text.toList) : ts.map Token.dump = us.map Token.dump ↔
      ts.map Token.text = us.map Token.text ∧ ts.map Token.kind = us.map Token.kind := by
  constructor
  · intro h
    have hread : ∀ {ts : List Token}, (∀ t ∈ ts, ' ' ∉ t.text.toList) →
        (ts.map Token.dump).map fields = ts.map fun t => [t.text, t.kind] := by
      intro ts hts
      rw [List.map_map]
      exact List.map_congr_left fun t ht => fields_dump (hts t ht)
    -- Both columns of the listing can be read off the lines.
    have hfields := congrArg (List.map fields) h
    rw [hread hts, hread hus] at hfields
    constructor
    · have htexts := congrArg (List.map fun fs => fs.headD "") hfields
      rwa [List.map_map, List.map_map] at htexts
    · have hkinds := congrArg (List.map fun fs => fs.getLastD "") hfields
      rwa [List.map_map, List.map_map] at hkinds
  · rintro ⟨htexts, hkinds⟩
    exact map_eq_of_parts (fun text kind => text ++ " " ++ kind) (fun _ => rfl) htexts hkinds

theorem map_operator?_eq {ts us : List Token} (htexts : ts.map Token.text = us.map Token.text)
    (hkinds : ts.map Token.kind = us.map Token.kind) :
    ts.map Token.operator? = us.map Token.operator? :=
  map_eq_of_parts operator? operator?_eq htexts hkinds

end Listing

/-- A number can be read back from its digits. -/
theorem eq_of_repr_eq {m n : Nat} (h : m.repr = n.repr) : m = n := by
  have hread := congrArg wholeNumber? h
  rwa [wholeNumber?_repr, wholeNumber?_repr, Option.some.injEq] at hread

theorem not_mem_repr {c : Char} (hc : c.isDigit = false) (n : Nat) : c ∉ n.repr.toList := by
  rw [Nat.toList_repr]
  intro hmem
  rw [Nat.isDigit_of_mem_toDigits (by omega) (by omega) hmem] at hc
  cases hc

namespace LexicalError

/-- The line of an illegal text, with the separator that ends its position. -/
theorem toList_message (e : LexicalError) : e.message.toList =
    "Lexical Error at position ".toList ++
      (e.position.repr.toList ++ ' ' :: ("illegal character: ".toList ++ e.text.toList)) := by
  have hmessage : e.message = "Lexical Error at position " ++ e.position.repr ++
      " illegal character: " ++ e.text := rfl
  rw [hmessage, String.toList_append, String.toList_append, String.toList_append,
    List.append_assoc, List.append_assoc]
  rfl

/-- The position ends at the first space behind it, and what follows tells the text. -/
theorem message_inj {e e' : LexicalError} (h : e.message = e'.message) : e = e' := by
  -- Both lines have the same words in front of the position.
  have hchars := congrArg String.toList h
  rw [toList_message, toList_message, List.append_cancel_left_eq] at hchars
  rcases pieces_eq (not_mem_repr rfl _) (not_mem_repr rfl _) hchars with ⟨hposition, htext⟩
  rw [List.append_cancel_left_eq, String.toList_inj] at htext
  have hnumber := eq_of_repr_eq (String.toList_inj.1 hposition)
  rcases e with ⟨text, position⟩
  rcases e' with ⟨text', position'⟩
  cases hnumber
  cases htext
  rfl

end LexicalError

section

variable {line a b : String} {l la lb : Lexed}

/-- The lines of a listing: one for each token, and one for each illegal text. -/
def Lexed.listing (l : Lexed) : List String :=
  l.tokens.map Token.dump ++ l.errors.map LexicalError.message

/-- A listing is printed, and the status tells whether there were illegal texts. -/
theorem Session.tokensLine_of_tokenize (h : tokenize line = .ok l) :
    tokensLine line = .ok ⟨if l.isOk then 0 else 1, printed l.listing, ""⟩ :=
  Checked.bind_eq_ok_iff.2 ⟨l, h, rfl⟩

namespace Lexed

/-- A character that is no part of a lexeme, and not of the text of the end marker either, is in
    no text of a token. -/
theorem not_mem_text (h : tokenize line = .ok l) {c : Char} (hc : Lexeme.uses c = false)
    (hend : c ∉ Token.endText.toList) : ∀ t ∈ l.tokens, c ∉ t.text.toList := by
  rcases exists_cuts_of_tokenize h with ⟨fs, hcuts, hlists⟩
  intro t ht hmem
  -- A token is a lexeme of the line or the end marker.
  rcases List.mem_append.1 ht with ht | ht
  · rcases List.mem_map.1 ht with ⟨x, hx, rfl⟩
    rw [hlists.lexemes] at hx
    rcases hcuts.exists_split hx with ⟨pre, w, post, -, rfl, -⟩
    rw [Token.text, Word.text_place, String.toList_ofList] at hmem
    rw [Word.uses_of_mem hmem] at hc
    cases hc
  · rw [List.mem_singleton.1 ht] at hmem
    exact hend hmem

theorem space_not_mem_text (h : tokenize line = .ok l) : ∀ t ∈ l.tokens, ' ' ∉ t.text.toList :=
  not_mem_text h (by decide) (by decide)

/-- No line of a listing has a line feed in it, unless the line itself has one. -/
theorem newline_not_mem_listing (h : tokenize line = .ok l) (hline : '\n' ∉ line.toList) :
    ∀ text ∈ l.listing, '\n' ∉ text.toList := by
  intro text htext
  rcases List.mem_append.1 htext with htext | htext
  · rcases List.mem_map.1 htext with ⟨t, ht, rfl⟩
    rw [Listing.toList_dump, List.mem_append, List.mem_cons]
    -- A line feed would be in the text, the space or the kind.
    rintro (hmem | hmem | hmem)
    · exact not_mem_text h (by decide) (by decide) t ht hmem
    · cases hmem
    · cases Listing.isAlpha_of_mem_kind hmem
  · rcases List.mem_map.1 htext with ⟨e, he, rfl⟩
    -- What is illegal in a line is one of its characters.
    rw [errors_eq h] at he
    rcases List.mem_map.1 he with ⟨⟨ch, column⟩, hc, rfl⟩
    have hch := List.mem_of_getElem? (Line.mem_illegals_iff.1 hc).1
    rw [LexicalError.toList_message, List.mem_append, List.mem_append, List.mem_cons,
      List.mem_append]
    rintro (hmem | hmem | hmem | hmem | hmem)
    · exact absurd hmem (by decide)
    · exact not_mem_repr rfl _ hmem
    · cases hmem
    · exact absurd hmem (by decide)
    · change '\n' ∈ ch.toString.toList at hmem
      rw [Char.toString, String.toList_singleton, List.mem_singleton] at hmem
      exact hline (hmem ▸ hch)

/-- The line of the end marker is between the lines of the other tokens and those of the illegal
    texts. -/
theorem listing_eq (l : Lexed) : l.listing = (l.lexemes.map .lexeme).map Token.dump ++
    (Token.endOfInput l.length).dump :: l.errors.map LexicalError.message := by
  rw [listing, tokens, List.map_append, List.append_assoc]
  rfl

/-- No other token has the line of the end marker. -/
theorem dump_end_not_mem (h : tokenize line = .ok l) (length : Nat) :
    (Token.endOfInput length).dump ∉ (l.lexemes.map .lexeme).map Token.dump := by
  intro hmem
  rcases List.mem_map.1 hmem with ⟨t, ht, hdump⟩
  have hspace := space_not_mem_text h t (List.mem_append_left _ ht)
  have hend : ' ' ∉ (Token.endOfInput length).text.toList := (by decide : ' ' ∉ "eof".toList)
  have hfields := congrArg Listing.fields hdump
  rw [Listing.fields_dump hspace, Listing.fields_dump hend, List.cons.injEq, List.cons.injEq]
    at hfields
  have hnumber : "Number" ≠ "EndOfInput" := by decide
  have hoperator : "Operator" ≠ "EndOfInput" := by decide
  rcases List.mem_map.1 ht with ⟨⟨text, span⟩ | ⟨op, column⟩, -, rfl⟩
  · exact hnumber hfields.2.1
  · exact hoperator hfields.2.1

/-- Two listings are the same if the tokens read the same and are of the same kinds, and the
    illegal texts are the same and stand at the same places. -/
theorem listing_eq_iff (ha : tokenize a = .ok la) (hb : tokenize b = .ok lb) :
    la.listing = lb.listing ↔ la.tokens.map Token.text = lb.tokens.map Token.text ∧
      la.tokens.map Token.kind = lb.tokens.map Token.kind ∧ la.errors = lb.errors := by
  have hdumps := Listing.map_dump_eq_iff (space_not_mem_text ha) (space_not_mem_text hb)
  rw [← and_assoc, ← hdumps]
  constructor
  · intro h
    have hmarker : (Token.endOfInput lb.length).dump = (Token.endOfInput la.length).dump := rfl
    rw [listing_eq, listing_eq, hmarker] at h
    -- The end marker separates the tokens from the illegal texts.
    rcases pieces_eq (dump_end_not_mem ha _) (dump_end_not_mem hb _) h with ⟨htokens, herrors⟩
    constructor
    · rw [tokens, tokens, List.map_append, List.map_append, htokens]
      rfl
    · exact (List.map_inj_right fun e e' h => LexicalError.message_inj h).1 herrors
  · rintro ⟨htokens, herrors⟩
    rw [listing, listing, htokens, herrors]

end Lexed

end

namespace Session

/-- A listing of tokens can be taken apart into a line for each token and a line for each illegal
    text. Two lines have the same listing exactly if their tokens have the same texts, kinds and
    operators, and they have the same illegal texts at the same places. -/
theorem tokensLine_tells {a b : String} (ha : '\n' ∉ a.toList) (hb : '\n' ∉ b.toList) :
    (a.length < Checked.limit → b.length < Checked.limit → ∃ la lb ta tb,
      tokenize a = .ok la ∧ tokenize b = .ok lb ∧
      tokensLine a = .ok ta ∧ tokensLine b = .ok tb ∧
      (ta.stdout.split '\n').toList.map String.Slice.copy =
        la.tokens.map Token.dump ++ la.errors.map LexicalError.message ++ [""] ∧
      (ta.stdout = tb.stdout ↔
        la.tokens.map Token.text = lb.tokens.map Token.text ∧
        la.tokens.map Token.kind = lb.tokens.map Token.kind ∧
        la.tokens.map Token.operator? = lb.tokens.map Token.operator? ∧
        la.errors = lb.errors)) ∧
    (Checked.limit ≤ a.length → tokensLine a = .error .additionOverflow) := by
  constructor
  · intro hla hlb
    rcases exists_fits hla with ⟨la, hla, -⟩
    rcases exists_fits hlb with ⟨lb, hlb, -⟩
    have hsplit := split_printed (Lexed.newline_not_mem_listing hla ha)
    refine ⟨la, lb, _, _, hla, hlb, tokensLine_of_tokenize hla, tokensLine_of_tokenize hlb,
      hsplit, ?_⟩
    -- Printing keeps the lines apart, so it tells no less than the listing.
    have hprinted : printed la.listing = printed lb.listing ↔ la.listing = lb.listing := by
      refine ⟨fun h => ?_, fun h => by rw [h]⟩
      rw [h, split_printed (Lexed.newline_not_mem_listing hlb hb)] at hsplit
      exact (List.append_cancel_right hsplit).symm
    rw [hprinted, Lexed.listing_eq_iff hla hlb]
    constructor
    · rintro ⟨htexts, hkinds, herrors⟩
      exact ⟨htexts, hkinds, Listing.map_operator?_eq htexts hkinds, herrors⟩
    · rintro ⟨htexts, hkinds, -, herrors⟩
      exact ⟨htexts, hkinds, herrors⟩
  · intro hlength
    rw [tokensLine, tokenize_overflows hlength]
    rfl

/-- The lines `1 +&` and `1+ &` have their tokens at different columns, and the same listing. The
    listing of `1+&` is another one, because its illegal character has another position. A line
    that is too long has no listing. -/
theorem tokensLine_tells_columns :
    ('\n' ∉ "1 +&".toList ∧ '\n' ∉ "1+ &".toList ∧ '\n' ∉ "1+&".toList) ∧
    ("1 +&".length < Checked.limit ∧ "1+ &".length < Checked.limit ∧
      "1+&".length < Checked.limit) ∧
    (∃ ta tb tc, tokensLine "1 +&" = .ok ta ∧ tokensLine "1+ &" = .ok tb ∧
      tokensLine "1+&" = .ok tc ∧ ta.stdout = tb.stdout ∧ tb.stdout ≠ tc.stdout ∧
      (tb.stdout.split '\n').toList.map String.Slice.copy =
        ["1 Number", "+ Operator", "eof EndOfInput",
          "Lexical Error at position 4 illegal character: &", ""]) ∧
    tokensLine (String.ofList (List.replicate Checked.limit ' ')) = .error .additionOverflow := by
  have ha : '\n' ∉ "1 +&".toList := by decide
  have hb : '\n' ∉ "1+ &".toList := by decide
  have hc : '\n' ∉ "1+&".toList := by decide
  have hla : "1 +&".length < Checked.limit := by decide
  have hlb : "1+ &".length < Checked.limit := by decide
  have hlc : "1+&".length < Checked.limit := by decide
  refine ⟨⟨ha, hb, hc⟩, ⟨hla, hlb, hlc⟩, ?_, ?_⟩
  · rcases (tokensLine_tells ha hb).1 hla hlb with ⟨la, lb, ta, tb, hta, htb, hpa, hpb, -, hsame⟩
    rcases (tokensLine_tells hb hc).1 hlb hlc with
      ⟨l, lc, t, tc, hl, htc, hpt, hpc, hsplit, hother⟩
    rw [htb] at hl
    rw [hpb] at hpt
    cases hl
    cases hpt
    have hreada : (tokenize "1 +&").map (fun l => (l.tokens, l.errors)) =
        .ok ([.lexeme (.number "1" ⟨0, 1⟩), .lexeme (.operator .plus 2), .endOfInput 4],
          [⟨"&", 4⟩]) := rfl
    have hreadb : (tokenize "1+ &").map (fun l => (l.tokens, l.errors)) =
        .ok ([.lexeme (.number "1" ⟨0, 1⟩), .lexeme (.operator .plus 1), .endOfInput 4],
          [⟨"&", 4⟩]) := rfl
    have hreadc : (tokenize "1+&").map Lexed.errors = .ok [⟨"&", 3⟩] := rfl
    rw [hta] at hreada
    rw [htb] at hreadb
    rw [htc] at hreadc
    rcases Prod.mk.inj (Except.ok.inj hreada) with ⟨htokensa, herrorsa⟩
    rcases Prod.mk.inj (Except.ok.inj hreadb) with ⟨htokensb, herrorsb⟩
    have herrorsc : lc.errors = [⟨"&", 3⟩] := Except.ok.inj hreadc
    rw [htokensb, herrorsb] at hsplit
    refine ⟨ta, tb, tc, hpa, hpb, hpc, hsame.2 ?_, fun h => ?_, hsplit⟩
    · rw [htokensa, htokensb, herrorsa, herrorsb]
      exact ⟨rfl, rfl, rfl, rfl⟩
    · have hpositions := (hother.1 h).2.2.2
      rw [herrorsb, herrorsc] at hpositions
      exact absurd hpositions (by decide)
  · refine (tokensLine_tells ?_ ha).2 ?_
    · rw [String.toList_ofList]
      exact fun hmem => by cases List.eq_of_mem_replicate hmem
    · rw [String.length_ofList, List.length_replicate]

end Session

end LineCalc
