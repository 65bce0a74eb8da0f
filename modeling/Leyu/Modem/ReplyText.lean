import Leyu.Framework.Search
import Leyu.Modem.ErrorReply

/-!
# The text a custom command stores

A reply is an echo line, an information text and the line OK, with an empty line before and
behind the text where the modem writes one. The handler counts back from the OK: it takes it for
granted that a line end and a text are in front of it, and it looks for a carriage return in the
last two places of what it has copied, also where the buffer cut the text.
-/

namespace Leyu

open Framework

/-- A reply of the modem that ends with OK; `info` is empty when there is no information text. -/
structure Reply where
  echo : Text
  blankBefore : Bool
  info : Text
  blankAfter : Bool
  oneLine : '\n' ∉ echo
  head : ¬ crlf <+: info
  last : ∀ c ∈ info.getLast?, c ≠ '\r' ∧ c ≠ '\n'

def blank (b : Bool) : Text := if b then crlf else []

namespace Reply

/-- The information text and the final result code. -/
def body (r : Reply) : Text :=
  (if r.info = [] then [] else r.info ++ crlf ++ blank r.blankAfter) ++ (resultOk ++ crlf)

/-- What the line handler is given when all of the reply is there. -/
def line (r : Reply) : Text := blank r.blankBefore ++ r.body

def text (r : Reply) : Text := r.echo ++ crlf ++ r.line

end Reply

/-- `start - line` in `_handle_string`. -/
def textStart (line : Text) : Nat := if line.take 2 = crlf then 2 else 0

/-- `len` in `_handle_string`, with the OK at `fin` and a result buffer of `resLen` bytes. -/
def copyLength (line : Text) (fin resLen : Nat) : Nat :=
  min ((fin + 2 ^ 32 - textStart line - 2) % 2 ^ 32) (resLen - 1)

def copiedText (line : Text) (fin resLen : Nat) : Text :=
  stripCrLfTail ((line.drop (textStart line)).take (copyLength line fin resLen))
    (copyLength line fin resLen)

private theorem handleString_ok {line : Text} {fin : Nat} (herror : ¬ Occurs resultError line)
    (hfin : strstr resultOk line = some fin) (result : CommonString) :
    handleString line result =
      (true, { result with string := copiedText line fin result.len }) := by
  rw [handleString, if_neg herror, hfin]
  rfl

private theorem handleString_error {line : Text} (herror : Occurs resultError line)
    (result : CommonString) : handleString line result = (true, result) := by
  rw [handleString, if_pos herror]

private theorem handleString_open {line : Text} {result : CommonString}
    (h : (handleString line result).1 = false) : (handleString line result).2 = result := by
  unfold handleString at h ⊢
  split
  · rfl
  · rename_i herror
    rw [if_neg herror] at h
    cases hfin : strstr resultOk line with
    | none => rfl
    | some fin =>
      rw [hfin] at h
      cases h

section

variable {κ σ : Type}

/-- A handler that leaves its context alone until it is done sees, of a reply that fits the
buffer and completes a response, one front part that does. -/
theorem waitBits_ctx {handler : Text → κ → Bool × κ} (ctx : κ)
    (hopen : ∀ t, (handler t ctx).1 = false → (handler t ctx).2 = ctx) (texts : List Text)
    {p : AtParser κ σ} (s : σ) (hrun : p.stoppedBit = false) (hrsp : p.rspBit = false)
    (hline : p.handleLine = some handler) (hctx : p.handleLineCtx = ctx)
    (hnot : ¬ Finished (fun t => (handler t ctx).1 = true) p.received)
    (hfit : p.received.length + texts.flatten.length < p.config.recvBufferLength)
    (hfin : Finished (fun t => (handler t ctx).1 = true) (p.received ++ texts.flatten)) :
    ∃ front, front <+: p.received ++ texts.flatten ∧
      Finished (fun t => (handler t ctx).1 = true) front ∧
      (waitBits (texts.map .written) (p, s)).1.handleLineCtx =
        (handler (skipFirstLine front) ctx).2 := by
  induction texts generalizing p s with
  | nil =>
    rw [List.flatten_nil, List.append_nil] at hfin
    exact absurd hfin hnot
  | cons t ts ih =>
    rw [List.flatten_cons, List.length_append] at hfit
    have hroom : ¬ p.config.recvBufferLength ≤ t.length + p.received.length := by omega
    have hlong : (p.received ++ t).length + ts.flatten.length < p.config.recvBufferLength := by
      rw [List.length_append]
      omega
    rw [List.flatten_cons, ← List.append_assoc] at hfin ⊢
    simp only [List.map_cons, waitBits, hrsp, hrun, Bool.or_false, Bool.false_eq_true, if_false,
      RxEvent.step, modemAtWriteResponseDone_handler hrun hline, hroom, hctx]
    by_cases hend : EndsLine (p.received ++ t)
    · simp only [hend, if_true]
      cases hdone : (handler (skipFirstLine (p.received ++ t)) ctx).1 with
      | true =>
        refine ⟨p.received ++ t, List.prefix_append _ _, ⟨hend, hdone⟩, ?_⟩
        cases ts <;> simp [waitBits]
      | false =>
        have hstill : ¬ Finished (fun t => (handler t ctx).1 = true) (p.received ++ t) := by
          rintro ⟨-, h⟩
          rw [hdone] at h
          exact absurd h (by decide)
        exact ih (p := { p with
          received := p.received ++ t
          handleLineCtx := (handler (skipFirstLine (p.received ++ t)) ctx).2
          rspBit := false
          stoppedBit := false }) s rfl rfl hline (hopen _ hdone) hstill hlong hfin
    · simp only [hend, if_false]
      exact ih (p := { p with
        received := p.received ++ t
        handleLineCtx := ctx
        rspBit := false
        stoppedBit := false }) s rfl rfl hline rfl (fun h => hend h.1) hlong hfin

end

private theorem stripCrLfTail_eq_self_iff (t : Text) (len : Nat) :
    stripCrLfTail t len = t ↔
      t[(len + 2 ^ 32 - 2) % 2 ^ 32]? ≠ some '\r' ∧ t[(len + 2 ^ 32 - 1) % 2 ^ 32]? ≠ some '\r' := by
  have hcut {i : Nat} (hi : t[i]? = some '\r') : t.take i ≠ t := by
    intro h
    have hlength := congrArg List.length h
    obtain ⟨hin, -⟩ := List.getElem?_eq_some_iff.mp hi
    rw [List.length_take] at hlength
    omega
  simp only [stripCrLfTail]
  split
  · rename_i hbefore
    exact ⟨fun h => absurd h (hcut hbefore), fun h => absurd hbefore h.1⟩
  · rename_i hbefore
    split
    · rename_i hat
      exact ⟨fun h => absurd h (hcut hat), fun h => absurd hat h.2⟩
    · rename_i hat
      exact ⟨fun _ => ⟨hbefore, hat⟩, fun _ => rfl⟩

private theorem stripCrLfTail_length_le (t : Text) (len : Nat) :
    (stripCrLfTail t len).length ≤ t.length := by
  unfold stripCrLfTail
  dsimp only
  split
  · exact List.length_take_le' _ _
  · split
    · exact List.length_take_le' _ _
    · exact Nat.le_refl _

private theorem copiedText_length_le (line : Text) (fin resLen : Nat) :
    (copiedText line fin resLen).length ≤ copyLength line fin resLen :=
  Nat.le_trans (stripCrLfTail_length_le _ _) (List.length_take_le _ _)

private theorem stripCrLfTail_whole_iff {t : Text} (hlen : t.length < 2 ^ 32) :
    stripCrLfTail t t.length = t ↔ '\r' ∉ t.drop (t.length - 2) := by
  have hmem : '\r' ∈ t.drop (t.length - 2) ↔ ∃ j, t[t.length - 2 + j]? = some '\r' := by
    rw [List.mem_iff_getElem?]
    simp only [List.getElem?_drop]
  have hin {i : Nat} (hi : t[i]? = some '\r') : i < t.length :=
    (List.getElem?_eq_some_iff.mp hi).1
  rw [stripCrLfTail_eq_self_iff, hmem]
  constructor
  · rintro ⟨hbefore, hat⟩ ⟨j, hj⟩
    have hlt := hin hj
    rcases Nat.lt_or_ge (t.length - 2 + j) (t.length - 1) with h | h
    · apply hbefore
      rw [show (t.length + 2 ^ 32 - 2) % 2 ^ 32 = t.length - 2 + j by omega]
      exact hj
    · apply hat
      rw [show (t.length + 2 ^ 32 - 1) % 2 ^ 32 = t.length - 2 + j by omega]
      exact hj
  · intro hnone
    constructor
    · intro hbefore
      have hlt := hin hbefore
      apply hnone
      refine ⟨0, ?_⟩
      rw [show t.length - 2 + 0 = (t.length + 2 ^ 32 - 2) % 2 ^ 32 by omega]
      exact hbefore
    · intro hat
      have hlt := hin hat
      apply hnone
      refine ⟨t.length - 1 - (t.length - 2), ?_⟩
      rw [show t.length - 2 + (t.length - 1 - (t.length - 2)) = (t.length + 2 ^ 32 - 1) % 2 ^ 32 by
        omega]
      exact hat

private theorem stripCrLfTail_crlf (t : Text) (hlen : t.length + 2 < 2 ^ 32) :
    stripCrLfTail (t ++ crlf) (t.length + 2) = t := by
  have hbefore : (t.length + 2 + 2 ^ 32 - 2) % 2 ^ 32 = t.length := by omega
  have hget : (t ++ crlf)[t.length]? = some '\r' := by
    rw [List.getElem?_append_right (Nat.le_refl _), Nat.sub_self]
    rfl
  simp only [stripCrLfTail, hbefore, hget, if_true]
  exact List.take_left

private theorem stripCrLfTail_cr {t : Text} (hne : t ≠ []) (hlast : ∀ c ∈ t.getLast?, c ≠ '\r')
    (hlen : t.length + 1 < 2 ^ 32) :
    stripCrLfTail (t ++ ['\r']) (t.length + 1) = t := by
  have hpos : 0 < t.length := List.length_pos_iff.mpr hne
  have hbefore : (t.length + 1 + 2 ^ 32 - 2) % 2 ^ 32 = t.length - 1 := by omega
  have hat : (t.length + 1 + 2 ^ 32 - 1) % 2 ^ 32 = t.length := by omega
  have hget : (t ++ ['\r'])[t.length - 1]? = t.getLast? := by
    rw [List.getElem?_append_left (by omega), List.getLast?_eq_getElem?]
  have hnot : (t ++ ['\r'])[t.length - 1]? ≠ some '\r' := by
    rw [hget]
    intro h
    exact hlast _ h rfl
  have hcr : (t ++ ['\r'])[t.length]? = some '\r' := by
    rw [List.getElem?_append_right (Nat.le_refl _), Nat.sub_self]
    rfl
  simp only [stripCrLfTail, hbefore, hat, if_neg hnot, hcr, if_true]
  exact List.take_left

private theorem textStart_front {t u : Text} (htu : t <+: u) (hlen : 2 ≤ t.length) :
    textStart t = textStart u := by
  obtain ⟨v, rfl⟩ := htu
  rw [textStart, textStart, List.take_append_of_le_length hlen]

/-- What is copied does not change when more arrives behind the OK, as long as the copy stays in
front of it. -/
theorem copiedText_front {t u : Text} {fin resLen : Nat} (htu : t <+: u)
    (hfin : strstr resultOk t = some fin)
    (hcopy : copyLength u fin resLen ≤ fin - textStart u) :
    copiedText t fin resLen = copiedText u fin resLen := by
  have hlen : fin + 2 ≤ t.length := strstr_length hfin
  have hstart : textStart t = textStart u := textStart_front htu (by omega)
  have hcopyLength : copyLength t fin resLen = copyLength u fin resLen := by
    rw [copyLength, copyLength, hstart]
  have hsmall : textStart u ≤ 2 := by
    unfold textStart
    split <;> omega
  have htake : (t.drop (textStart u)).take (copyLength u fin resLen) =
      (u.drop (textStart u)).take (copyLength u fin resLen) := by
    obtain ⟨v, rfl⟩ := htu
    rw [List.drop_append_of_le_length (by omega), List.take_append_of_le_length]
    rw [List.length_drop]
    omega
  rw [copiedText, copiedText, hcopyLength, hstart, htake]

namespace Reply

private theorem ok_plain : Plain resultOk := by decide

private theorem error_plain : Plain resultError := by decide

/-- The place of the first OK behind the start of the information text. -/
def okAt (r : Reply) : Nat :=
  match strstr resultOk r.info with
  | some i => i
  | none => if r.info = [] then 0 else r.info.length + 2 + (blank r.blankAfter).length

private theorem strstr_blank (b : Bool) (t : Text) :
    strstr resultOk (blank b ++ t) = (strstr resultOk t).map (· + (blank b).length) := by
  cases b with
  | false => simp [blank]
  | true =>
    have h := strstr_line ok_plain (l := []) (by decide) t
    rw [List.nil_append] at h
    exact h

private theorem strstr_body (r : Reply) : strstr resultOk r.body = some r.okAt := by
  unfold body okAt
  by_cases hnil : r.info = []
  · simp only [hnil, if_true]
    decide
  · rw [if_neg hnil]
    cases hinfo : strstr resultOk r.info with
    | some i =>
      rw [List.append_assoc, List.append_assoc]
      exact strstr_append hinfo _
    | none =>
      have hnone : ¬ Occurs resultOk r.info := by
        rw [← strstr_isSome, hinfo]
        decide
      rw [List.append_assoc, strstr_line ok_plain hnone, strstr_blank,
        show strstr resultOk (resultOk ++ crlf) = some 0 by decide]
      simp only [hnil, if_false, Option.map_some, Option.some.injEq]
      omega

private theorem strstr_line (r : Reply) :
    strstr resultOk r.line = some (r.okAt + (blank r.blankBefore).length) := by
  rw [line, strstr_blank, strstr_body]
  rfl

private theorem textStart_line (r : Reply) : textStart r.line = (blank r.blankBefore).length := by
  cases hblank : r.blankBefore with
  | true => simp [textStart, line, blank, hblank, crlf]
  | false =>
    have hbody : ¬ crlf <+: r.body := by
      intro h
      unfold body at h
      by_cases hnil : r.info = []
      · simp [hnil, crlf, resultOk] at h
      · rw [if_neg hnil] at h
        rcases Nat.lt_or_ge r.info.length 2 with hshort | hlong
        · obtain ⟨c, hc⟩ : ∃ c, r.info = [c] := by
            apply List.length_eq_one_iff.mp
            have := List.length_pos_iff.mpr hnil
            omega
          have hhead : '\r' = c := by
            rw [hc] at h
            exact (List.cons_prefix_cons.mp h).1
          exact (r.last c (by simp [hc])).1 hhead.symm
        · apply r.head
          apply List.prefix_of_prefix_length_le h
          · rw [List.append_assoc, List.append_assoc]
            exact List.prefix_append _ _
          · exact hlong
    have hline : r.line = r.body := by simp [line, blank, hblank]
    have htake : ¬ r.body.take 2 = crlf := by
      intro h
      exact hbody (h ▸ List.take_prefix 2 r.body)
    rw [hline, textStart, if_neg htake]
    rfl

private theorem drop_line (r : Reply) : r.line.drop (textStart r.line) = r.body := by
  rw [textStart_line, line, List.drop_left]

private theorem copyLength_line (r : Reply) (resLen : Nat) :
    copyLength r.line (r.okAt + (blank r.blankBefore).length) resLen =
      min ((r.okAt + 2 ^ 32 - 2) % 2 ^ 32) (resLen - 1) := by
  rw [copyLength, textStart_line]
  congr 2
  omega

private theorem occurs_error_line_iff (r : Reply) :
    Occurs resultError r.line ↔ Occurs resultError r.info := by
  have hblank : ∀ (b : Bool) (t : Text), Occurs resultError (blank b ++ t) ↔
      Occurs resultError t := by
    intro b t
    cases b with
    | false => rfl
    | true =>
      have h := occurs_line_iff (by decide) error_plain [] t
      rw [List.nil_append] at h
      rw [show blank true = crlf from rfl, h]
      simp [resultError]
  have hend : ¬ Occurs resultError (resultOk ++ crlf) := by decide
  rw [line, hblank, body]
  by_cases hnil : r.info = []
  · rw [if_pos hnil, hnil]
    decide
  · rw [if_neg hnil, List.append_assoc, occurs_line_iff (by decide) error_plain, hblank]
    simp [hend]

/-- The replies that are stored as they are: all of the reply fits the receive buffer, the
information text has no ERROR in it and any OK in it comes behind what the result buffer holds,
and what is stored has no carriage return where a line end is looked for. -/
structure Stored (recvLen resLen : Nat) (r : Reply) : Prop where
  fits : r.text.length < recvLen
  noError : ¬ Occurs resultError r.info
  someText : r.info = [] → resLen = 1
  okBehind : ∀ i, strstr resultOk r.info = some i → resLen - 1 ≤ if i < 2 then i else i - 2
  clearCut : resLen - 1 ≤ r.info.length ∨ r.blankAfter = false →
    '\r' ∉ (r.info.take (resLen - 1)).drop ((r.info.take (resLen - 1)).length - 2)

private theorem info_length (r : Reply) : r.info.length + 4 ≤ r.text.length := by
  simp only [text, line, body, List.length_append]
  split
  · rename_i hnil
    simp only [hnil, crlf, resultOk, List.length_cons, List.length_nil]
    omega
  · simp only [List.length_append, crlf, resultOk, List.length_cons, List.length_nil]
    omega

section

variable {r : Reply} {resLen : Nat}

private theorem copyLength_le (hlen : resLen < 2 ^ 32) (hinfo : r.info.length + 4 < 2 ^ 32)
    (hsome : r.info = [] → resLen = 1)
    (hok : ∀ i, strstr resultOk r.info = some i → resLen - 1 ≤ if i < 2 then i else i - 2) :
    min ((r.okAt + 2 ^ 32 - 2) % 2 ^ 32) (resLen - 1) =
        min (r.info.length + (blank r.blankAfter).length) (resLen - 1) ∧
      min ((r.okAt + 2 ^ 32 - 2) % 2 ^ 32) (resLen - 1) ≤ r.okAt := by
  have hblank : (blank r.blankAfter).length ≤ 2 := by
    cases r.blankAfter <;> decide
  unfold okAt
  cases hfirst : strstr resultOk r.info with
  | some i =>
    have hin : i + 2 ≤ r.info.length := strstr_length hfirst
    have hbefore := hok i hfirst
    simp only
    split at hbefore <;> omega
  | none =>
    by_cases hnil : r.info = []
    · simp only [hnil, if_true, hsome hnil]
      omega
    · simp only [hnil, if_false]
      omega

private theorem take_body {n : Nat} (hnil : r.info = [] → n = 0)
    (hn : n ≤ r.info.length + (blank r.blankAfter).length) :
    r.body.take n = (r.info ++ blank r.blankAfter).take n := by
  by_cases h : r.info = []
  · rw [hnil h, List.take_zero, List.take_zero]
  · rw [body, if_neg h]
    cases hblank : r.blankAfter with
    | true =>
      rw [List.append_assoc, List.take_append_of_le_length]
      · rfl
      · rw [hblank] at hn
        exact Nat.le_trans hn (by simp [blank])
    | false =>
      rw [hblank] at hn
      have hshort : n ≤ r.info.length := by simpa [blank] using hn
      rw [List.append_assoc, List.append_assoc, List.take_append_of_le_length hshort,
        List.take_append_of_le_length hshort]

private theorem copiedText_line (hlen : resLen < 2 ^ 32) (hinfo : r.info.length + 4 < 2 ^ 32)
    (hsome : r.info = [] → resLen = 1)
    (hok : ∀ i, strstr resultOk r.info = some i → resLen - 1 ≤ if i < 2 then i else i - 2) :
    copiedText r.line (r.okAt + (blank r.blankBefore).length) resLen =
      stripCrLfTail ((r.info ++ blank r.blankAfter).take (resLen - 1))
        ((r.info ++ blank r.blankAfter).take (resLen - 1)).length := by
  have hcopy := (copyLength_le hlen hinfo hsome hok).1
  have hlength : ((r.info ++ blank r.blankAfter).take (resLen - 1)).length =
      min (r.info.length + (blank r.blankAfter).length) (resLen - 1) := by
    rw [List.length_take, List.length_append]
    omega
  have htake : (r.info ++ blank r.blankAfter).take
      (min (r.info.length + (blank r.blankAfter).length) (resLen - 1)) =
        (r.info ++ blank r.blankAfter).take (resLen - 1) := by
    rw [← hlength, List.length_take, List.length_append, ← List.length_append]
    apply List.take_eq_take_iff.mpr
    omega
  rw [copiedText, copyLength_line, hcopy, drop_line, hlength, take_body, htake]
  · intro hnil
    have := hsome hnil
    omega
  · omega

/-- The tail that is stripped is the line end in front of an empty line, unless the copy stops in
the text or there is no empty line. -/
theorem stripped_iff (hinfo : r.info.length + 4 < 2 ^ 32)
    (hsome : r.info = [] → resLen = 1) :
    stripCrLfTail ((r.info ++ blank r.blankAfter).take (resLen - 1))
        ((r.info ++ blank r.blankAfter).take (resLen - 1)).length = r.info.take (resLen - 1) ↔
      (resLen - 1 ≤ r.info.length ∨ r.blankAfter = false →
        '\r' ∉ (r.info.take (resLen - 1)).drop ((r.info.take (resLen - 1)).length - 2)) := by
  by_cases hcut : resLen - 1 ≤ r.info.length ∨ r.blankAfter = false
  · have htake : (r.info ++ blank r.blankAfter).take (resLen - 1) = r.info.take (resLen - 1) := by
      rcases hcut with hshort | hblank
      · exact List.take_append_of_le_length hshort
      · simp [hblank, blank]
    rw [htake, stripCrLfTail_whole_iff]
    · exact (imp_iff_right hcut).symm
    · rw [List.length_take]
      omega
  · obtain ⟨hlong, hblank⟩ := not_or.mp hcut
    have hne : r.info ≠ [] := by
      intro hnil
      have := hsome hnil
      omega
    have hwhole : r.info.take (resLen - 1) = r.info := List.take_of_length_le (by omega)
    have hstrip : stripCrLfTail ((r.info ++ blank r.blankAfter).take (resLen - 1))
        ((r.info ++ blank r.blankAfter).take (resLen - 1)).length = r.info := by
      rw [show blank r.blankAfter = crlf by simp [blank, hblank]]
      rcases Nat.lt_or_ge (resLen - 1) (r.info.length + 2) with hone | hboth
      · have htake : (r.info ++ crlf).take (resLen - 1) = r.info ++ ['\r'] := by
          rw [show resLen - 1 = r.info.length + 1 by omega, List.take_length_add_append]
          rfl
        rw [htake, List.length_append]
        apply stripCrLfTail_cr hne
        · intro c hc
          exact (r.last c hc).1
        · omega
      · have htake : (r.info ++ crlf).take (resLen - 1) = r.info ++ crlf := by
          apply List.take_of_length_le
          rw [List.length_append]
          exact hboth
        rw [htake, List.length_append]
        exact stripCrLfTail_crlf r.info (by omega)
    rw [hstrip, hwhole]
    exact ⟨fun _ h => absurd h hcut, fun _ => rfl⟩

end

private theorem text_finished (r : Reply) (ctx : CommonString) :
    Finished (fun t => (handleString t ctx).1 = true) r.text := by
  have hlen := r.info_length
  refine ⟨⟨?_, ?_⟩, ?_⟩
  · simp only [text, line, body, List.length_append, crlf, resultOk, List.length_cons,
      List.length_nil]
    omega
  · rw [text, line, body]
    simp only [← List.append_assoc]
    exact List.suffix_append _ _
  · have hok : Occurs resultOk r.line := by
      rw [← strstr_isSome, r.strstr_line]
      rfl
    rw [text, skipFirstLine_echo r.oneLine]
    exact (handleString_done r.line ctx).mpr (.inr hok)

/-- What the handler is given of a reply that has not all arrived is a front part of what it is
given of the whole. -/
theorem skipFirstLine_front (r : Reply) {front : Text} (hfront : front <+: r.text)
    (hend : EndsLine front) : skipFirstLine front <+: r.line := by
  have hecho : r.echo ++ crlf <+: r.text := List.prefix_append _ _
  rcases Nat.lt_or_ge front.length (r.echo ++ crlf).length with hshort | hlong
  · have hlt : front.length ≤ (r.echo ++ ['\r']).length := by
      rw [List.length_append] at hshort ⊢
      exact Nat.le_of_lt_succ hshort
    have hcr : r.echo ++ ['\r'] <+: r.text := by
      apply List.IsPrefix.trans _ hecho
      exact (List.prefix_append_right_inj r.echo).mpr (by decide)
    have hpre : front <+: r.echo ++ ['\r'] := List.prefix_of_prefix_length_le hfront hcr hlt
    have hmem : '\n' ∈ r.echo ++ ['\r'] :=
      hpre.subset (hend.2.subset (by decide))
    rcases List.mem_append.mp hmem with h | h
    · exact absurd h r.oneLine
    · exact absurd h (by decide)
  · obtain ⟨t, rfl⟩ := List.prefix_of_prefix_length_le hecho hfront hlong
    rw [skipFirstLine_echo r.oneLine]
    rw [text] at hfront
    exact (List.prefix_append_right_inj _).mp hfront

end Reply

section

variable {σ : Type} {p : AtParser CommonString σ} {s : σ} {command : Text}

/-- Whatever was in the result buffer, and in whatever pieces the reply comes in, the buffer
holds the information text, cut to what fits in front of the terminator; and what is copied never
reaches past the OK. -/
def StoresText (p : AtParser CommonString σ) (s : σ) (command : Text) (resLen : Nat)
    (r : Reply) : Prop :=
  (∀ texts : List Text, texts.flatten = r.text → ∀ old : Text,
    (atSendCustomCommand true (texts.map .written) command ⟨resLen, old⟩ p
      s).2.1.handleLineCtx.string = r.info.take (resLen - 1)) ∧
  ∀ line, line <+: r.line → ∀ fin, strstr resultOk line = some fin →
    copyLength line fin resLen ≤ fin - textStart line

private theorem atSendCustomCommand_ctx (hp : p.Ready)
    (hcommand : command.length < p.config.sendBufferLength - 3) {resBuffer : CommonString}
    (hlen : 0 < resBuffer.len) (events : List RxEvent) :
    (atSendCustomCommand true events command resBuffer p s).2.1.handleLineCtx =
      (waitBits events (sendCommandStart handleString resBuffer p, s)).1.handleLineCtx := by
  have hguard : sendCommandGuard command p = .ok := by
    simp [sendCommandGuard, hp.idle, hp.started, hcommand]
  rw [atSendCustomCommand, if_neg (by omega), modemAtSendCommand, hguard]
  rfl

private theorem atSendCustomCommand_whole (hp : p.Ready)
    (hcommand : command.length < p.config.sendBufferLength - 3) {resBuffer : CommonString}
    (hlen : 0 < resBuffer.len) (r : Reply) :
    (atSendCustomCommand true [.written r.text] command resBuffer p s).2.1.handleLineCtx =
      if p.config.recvBufferLength ≤ r.text.length then resBuffer
      else (handleString r.line resBuffer).2 := by
  have hstop : (sendCommandStart handleString resBuffer p : AtParser CommonString σ).stoppedBit =
      false := hp.started
  have hskip : skipFirstLine r.text = r.line := by
    rw [Reply.text, skipFirstLine_echo r.oneLine]
  have hend : EndsLine r.text := (r.text_finished resBuffer).1
  have hopen : ((sendCommandStart handleString resBuffer p).rspBit ||
      (sendCommandStart handleString resBuffer p).stoppedBit) = false := by
    rw [hstop, Bool.or_false]
    exact hp.noRsp
  rw [atSendCustomCommand_ctx hp hcommand hlen, waitBits, hopen]
  simp only [Bool.false_eq_true, if_false, waitBits, RxEvent.step,
    modemAtWriteResponseDone_handler hstop rfl]
  show (if p.config.recvBufferLength ≤ r.text.length + 0 then _ else
    if EndsLine ([] ++ r.text) then _ else _ : AtParser CommonString σ × σ).1.handleLineCtx = _
  simp only [Nat.add_zero, List.nil_append, hend, if_true]
  split
  · rfl
  · simp only [sendCommandStart, List.nil_append, hskip]

private theorem atSendCustomCommand_pieces (hp : p.Ready)
    (hcommand : command.length < p.config.sendBufferLength - 3) {resBuffer : CommonString}
    (hlen : 0 < resBuffer.len) {r : Reply} (hfits : r.text.length < p.config.recvBufferLength)
    {texts : List Text} (htexts : texts.flatten = r.text) :
    ∃ line, line <+: r.line ∧ HasResult line ∧
      (atSendCustomCommand true (texts.map .written) command resBuffer p s).2.1.handleLineCtx =
        (handleString line resBuffer).2 := by
  have hempty : ¬ Finished (fun t => (handleString t resBuffer).1 = true) [] :=
    fun h => absurd h.1.1 (by simp)
  have hshort : 0 + texts.flatten.length < p.config.recvBufferLength := by
    rw [htexts, Nat.zero_add]
    exact hfits
  have hfinished : Finished (fun t => (handleString t resBuffer).1 = true)
      ([] ++ texts.flatten) := by
    rw [htexts]
    exact r.text_finished resBuffer
  obtain ⟨front, hfront, hdone, hctx⟩ := waitBits_ctx resBuffer (fun t => handleString_open) texts
    (p := sendCommandStart handleString resBuffer p) s hp.started hp.noRsp rfl rfl hempty hshort
    hfinished
  have hprefix : front <+: r.text := by
    rw [← htexts]
    exact hfront
  refine ⟨skipFirstLine front, r.skipFirstLine_front hprefix hdone.1, ?_, ?_⟩
  · exact (handleString_done _ _).mp hdone.2
  · rw [atSendCustomCommand_ctx hp hcommand hlen, hctx]

private theorem copyLength_front {r : Reply} (resLen : Nat) {line : Text} (hline : line <+: r.line)
    {fin : Nat} (hfin : strstr resultOk line = some fin) :
    fin = r.okAt + (blank r.blankBefore).length ∧ textStart line = (blank r.blankBefore).length ∧
      copyLength line fin resLen = min ((r.okAt + 2 ^ 32 - 2) % 2 ^ 32) (resLen - 1) := by
  have hlong : fin + 2 ≤ line.length := strstr_length hfin
  have hstart := textStart_front hline (by omega)
  have hwhole := strstr_front hline hfin
  rw [r.strstr_line, Option.some.injEq] at hwhole
  subst hwhole
  rw [r.textStart_line] at hstart
  refine ⟨rfl, hstart, ?_⟩
  rw [← r.copyLength_line, copyLength, copyLength, hstart, r.textStart_line]

private theorem storesText_of_stored (hp : p.Ready)
    (hcommand : command.length < p.config.sendBufferLength - 3)
    (hrecv : p.config.recvBufferLength < 2 ^ 32) {resLen : Nat} (hpos : 0 < resLen)
    (hlen : resLen < 2 ^ 32) {r : Reply} (h : r.Stored p.config.recvBufferLength resLen) :
    StoresText p s command resLen r := by
  have hinfo : r.info.length + 4 < 2 ^ 32 := by
    have := r.info_length
    have := h.fits
    omega
  have hcopy := (Reply.copyLength_le hlen hinfo h.someText h.okBehind).2
  constructor
  · intro texts htexts old
    obtain ⟨line, hline, hresult, hctx⟩ := atSendCustomCommand_pieces (s := s) hp hcommand
      (show 0 < (⟨resLen, old⟩ : CommonString).len from hpos) h.fits htexts
    have herror : ¬ Occurs resultError line := by
      intro herror
      apply h.noError
      rw [← r.occurs_error_line_iff]
      exact herror.trans hline.isInfix
    obtain ⟨fin, hfin⟩ := Option.isSome_iff_exists.mp
      ((strstr_isSome resultOk _).mpr (hresult.resolve_left herror))
    obtain ⟨rfl, -, -⟩ := copyLength_front resLen hline hfin
    rw [hctx, handleString_ok herror hfin]
    show copiedText line _ resLen = _
    rw [copiedText_front hline hfin, Reply.copiedText_line hlen hinfo h.someText h.okBehind]
    · exact (Reply.stripped_iff hinfo h.someText).mpr h.clearCut
    · rw [r.copyLength_line, r.textStart_line]
      omega
  · intro line hline fin hfin
    obtain ⟨rfl, hstart, hlength⟩ := copyLength_front resLen hline hfin
    rw [hlength, hstart]
    omega

private theorem okBehind_of_copied {r : Reply} {resLen : Nat} (hinfo : r.info.length + 4 < 2 ^ 32)
    (hlen : resLen < 2 ^ 32)
    (hcopy : min ((r.okAt + 2 ^ 32 - 2) % 2 ^ 32) (resLen - 1) ≤ r.okAt)
    (hcopied : copiedText r.line (r.okAt + (blank r.blankBefore).length) resLen =
      r.info.take (resLen - 1)) {i : Nat} (hi : strstr resultOk r.info = some i) :
    resLen - 1 ≤ if i < 2 then i else i - 2 := by
  have hin : i + 2 ≤ r.info.length := strstr_length hi
  have hat : r.okAt = i := by simp [Reply.okAt, hi]
  rw [hat] at hcopy
  split
  · omega
  · by_contra hshort
    have hcopyLength := copiedText_length_le r.line (r.okAt + (blank r.blankBefore).length) resLen
    rw [hcopied, List.length_take, r.copyLength_line, hat] at hcopyLength
    omega

private theorem stored_of_storesText (hp : p.Ready)
    (hcommand : command.length < p.config.sendBufferLength - 3)
    (hrecv : p.config.recvBufferLength < 2 ^ 32) {resLen : Nat} (hpos : 0 < resLen)
    (hlen : resLen < 2 ^ 32) {r : Reply} (h : StoresText p s command resLen r) :
    r.Stored p.config.recvBufferLength resLen := by
  obtain ⟨hstored, hbound⟩ := h
  have hwhole : ∀ old : Text,
      (if p.config.recvBufferLength ≤ r.text.length then (⟨resLen, old⟩ : CommonString)
        else (handleString r.line ⟨resLen, old⟩).2).string = r.info.take (resLen - 1) := by
    intro old
    rw [← atSendCustomCommand_whole (s := s) hp hcommand hpos]
    exact hstored [r.text] (by simp) old
  -- A buffer that is left as it was does not hold the text whatever was in it.
  have hwritten : ¬ ∀ old : Text, old = r.info.take (resLen - 1) := by
    intro hall
    exact absurd ((hall []).trans (hall ['O']).symm) (by decide)
  have hfits : r.text.length < p.config.recvBufferLength := by
    by_contra hlong
    apply hwritten
    intro old
    have hold := hwhole old
    rwa [if_pos (by omega)] at hold
  have hnot : ¬ p.config.recvBufferLength ≤ r.text.length := by omega
  have hinfo : r.info.length + 4 < 2 ^ 32 := by
    have := r.info_length
    omega
  have hcopy := hbound r.line (List.prefix_refl _) _ r.strstr_line
  rw [r.copyLength_line, r.textStart_line, Nat.add_sub_cancel] at hcopy
  have hnoError : ¬ Occurs resultError r.info := by
    intro herror
    rw [← r.occurs_error_line_iff] at herror
    apply hwritten
    intro old
    have hold := hwhole old
    rwa [if_neg hnot, handleString_error herror] at hold
  have hcopied : copiedText r.line (r.okAt + (blank r.blankBefore).length) resLen =
      r.info.take (resLen - 1) := by
    have hold := hwhole []
    rwa [if_neg hnot, handleString_ok (r.occurs_error_line_iff.not.mpr hnoError) r.strstr_line]
      at hold
  have hsome : r.info = [] → resLen = 1 := by
    intro hnil
    have hzero : r.okAt = 0 := by simp [Reply.okAt, hnil, strstr, resultOk]
    rw [hzero] at hcopy
    omega
  have hok : ∀ i, strstr resultOk r.info = some i → resLen - 1 ≤ if i < 2 then i else i - 2 :=
    fun _ hi => okBehind_of_copied hinfo hlen hcopy hcopied hi
  refine ⟨hfits, hnoError, hsome, hok, ?_⟩
  rw [Reply.copiedText_line hlen hinfo hsome hok] at hcopied
  exact (Reply.stripped_iff hinfo hsome).mp hcopied

/-- The information text is stored, and the copy stays in front of the OK, exactly for the replies
that are stored as they are. -/
theorem storesText_iff (hp : p.Ready) (hcommand : command.length < p.config.sendBufferLength - 3)
    (hrecv : p.config.recvBufferLength < 2 ^ 32) {resLen : Nat} (hpos : 0 < resLen)
    (hlen : resLen < 2 ^ 32) (r : Reply) :
    StoresText p s command resLen r ↔ r.Stored p.config.recvBufferLength resLen :=
  ⟨stored_of_storesText hp hcommand hrecv hpos hlen,
    storesText_of_stored hp hcommand hrecv hpos hlen⟩

end

def cgsn : Text := "AT+CGSN".toList

def cgsnReply : Reply where
  echo := cgsn ++ ['\r']
  blankBefore := true
  info := "860425".toList
  blankAfter := true
  oneLine := by decide
  head := by decide
  last := by simp

theorem storesText_iff_cgsn : StoresText startedParser () cgsn 1024 cgsnReply := by
  have hready : startedParser.Ready := modemAtStart_ready _ _
  apply (storesText_iff hready (by decide) (by decide) (by decide) (by decide) cgsnReply).mpr
  have hnone : strstr resultOk cgsnReply.info = none := by decide
  refine ⟨by decide, by decide, by decide, ?_, by decide⟩
  intro i hi
  rw [hnone] at hi
  cases hi

def ataReply : Reply where
  echo := ata ++ ['\r']
  blankBefore := false
  info := []
  blankAfter := false
  oneLine := by decide
  head := by decide
  last := by simp

/-- With nothing in front of the OK the length wraps, and the OK itself is stored. -/
theorem ata_storesOk :
    (atSendCustomCommand true [.written ataReply.text] ata ⟨1024, []⟩ startedParser
      ()).2.1.handleLineCtx.string = resultOk ++ crlf ∧
    copyLength ataReply.line 0 1024 = 1023 ∧ ¬ StoresText startedParser () ata 1024 ataReply := by
  have hstored : (atSendCustomCommand true [.written ataReply.text] ata ⟨1024, []⟩ startedParser
      ()).2.1.handleLineCtx.string = resultOk ++ crlf := by decide
  refine ⟨hstored, by decide, ?_⟩
  rintro ⟨htext, -⟩
  have hempty := htext [ataReply.text] (by simp) []
  rw [show ([ataReply.text].map RxEvent.written) = [.written ataReply.text] from rfl, hstored]
    at hempty
  exact absurd hempty (by decide)

end Leyu
