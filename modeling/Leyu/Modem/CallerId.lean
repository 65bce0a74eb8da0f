import Leyu.Modem.Lines

/-!
# The number of an incoming call

`at_handle_unsolicited_response` and `at_handle_line` look for `+CLCC:` anywhere in the text, but
match the format from its first character, and the format puts no width on the number it stores in
`number[20]`.
-/

namespace Leyu

open Framework

/-- `at_handle_line`, for the response of a command. -/
def atHandleLine (w : World) (line : Text) (p : Phone) : Bool × Phone :=
  if Occurs clccPrefix line then
    match clccScan line with
    | some (dir, number) =>
        if dir = 0 then (true, buttonHandlerSetCallState true p)
        else (true, (callManagerHandleIncomingCall w (.ofText number) p).2)
    | none => (true, p)
  else (true, p)

inductive ClccHandler
  | unsolicited
  | line

namespace ClccHandler

def handle : ClccHandler → World → Text → Phone → Bool × Phone
  | unsolicited => atHandleUnsolicitedResponse
  | line => atHandleLine

/-- The tests that come before the one for `+CLCC:`. -/
def Skips : ClccHandler → Text → Prop
  | unsolicited, t => Occurs noCarrier t ∨ Occurs ring t
  | line, _ => False

instance (h : ClccHandler) (t : Text) : Decidable (h.Skips t) := by
  cases h <;> unfold Skips <;> infer_instance

/-- What `sscanf` puts into `dir` and `number`, when the handler comes to it and a direction is
converted. -/
def scanned (h : ClccHandler) (t : Text) : Option (Int × Text) :=
  if ¬ h.Skips t ∧ Occurs clccPrefix t then clccScan t else none

/-- The number `call_manager_handle_incoming_call` is called with. -/
def handed (h : ClccHandler) (t : Text) : Option Text :=
  (h.scanned t).bind fun r => if r.1 = 0 then none else some r.2

end ClccHandler

theorem handle_of_not_skips {h : ClccHandler} {t : Text} (hskip : ¬ h.Skips t) (w : World)
    (p : Phone) :
    (h.handle w t p).2 = (h.scanned t).elim p fun r =>
      if r.1 = 0 then buttonHandlerSetCallState true p
      else (callManagerHandleIncomingCall w (.ofText r.2) p).2 := by
  -- Both functions have the same branch for `+CLCC:`.
  have hbranch : (match clccScan t with
      | some (dir, number) =>
          if dir = 0 then (true, buttonHandlerSetCallState true p)
          else (true, (callManagerHandleIncomingCall w (.ofText number) p).2)
      | none => (true, p) : Bool × Phone).2 = (clccScan t).elim p fun r =>
        if r.1 = 0 then buttonHandlerSetCallState true p
        else (callManagerHandleIncomingCall w (.ofText r.2) p).2 := by
    cases clccScan t with
    | none => rfl
    | some r => by_cases hd : r.1 = 0 <;> simp [hd]
  unfold ClccHandler.scanned
  by_cases hc : Occurs clccPrefix t
  · rw [if_pos ⟨hskip, hc⟩]
    cases h with
    | unsolicited =>
      have hno : ¬ Occurs noCarrier t ∧ ¬ Occurs ring t := not_or.mp hskip
      show (atHandleUnsolicitedResponse w t p).2 = _
      rw [atHandleUnsolicitedResponse, if_neg hno.1, if_neg hno.2, if_pos hc]
      exact hbranch
    | line =>
      show (atHandleLine w t p).2 = _
      rw [atHandleLine, if_pos hc]
      exact hbranch
  · rw [if_neg fun hreach => hc hreach.2]
    cases h with
    | unsolicited =>
      have hno : ¬ Occurs noCarrier t ∧ ¬ Occurs ring t := not_or.mp hskip
      simp [ClccHandler.handle, atHandleUnsolicitedResponse, hno, hc]
    | line => simp [ClccHandler.handle, atHandleLine, hc]

/-- The part of an entry from the status on with a quoted number; the closing quote may be
missing at the end of the text. -/
def QuotedPart (t number : Text) : Prop :=
  ∃ v₁ v₂ v₃ s₁ s₂ s₃ r, IntText v₁ s₁ ∧ IntText v₂ s₂ ∧ IntText v₃ s₃ ∧
    t = ',' :: (s₁ ++ ',' :: (s₂ ++ ',' :: (s₃ ++ ',' :: '"' :: (number ++ r)))) ∧
    number ≠ [] ∧ '"' ∉ number ∧ ∀ c ∈ r.head?, c = '"'

/-- The text begins with an entry of this direction and number; without a quoted number its
number is empty. -/
def LeadingEntry (t : Text) (dir : Int) (number : Text) : Prop :=
  ∃ id s₁ s₂ r, IntText id s₁ ∧ IntText dir s₂ ∧ t = clccPrefix ++ (s₁ ++ ',' :: (s₂ ++ r)) ∧
    NoDigitHead r ∧ (QuotedPart r number ∨ (∀ n, ¬ QuotedPart r n) ∧ number = [])

private theorem noDigitHead_comma (t : Text) : NoDigitHead (',' :: t) := by simp [NoDigitHead]

private theorem clccNumber_eq_some_iff {t number : Text} :
    clccNumber t = some number ↔ QuotedPart t number := by
  simp only [clccNumber, QuotedPart, Option.bind_eq_bind, Option.bind_eq_some_iff, Prod.exists,
    lit_eq_some_iff, scanInt_eq_some_iff, scanUntil_eq_some_iff]
  constructor
  · rintro ⟨_, rfl, v₁, _, ⟨s₁, h₁, rfl, -⟩, _, rfl, v₂, _, ⟨s₂, h₂, rfl, -⟩, _, rfl, v₃, _,
      ⟨s₃, h₃, rfl, -⟩, _, rfl, _, rfl, hne, hquote, r, rfl, hr⟩
    exact ⟨v₁, v₂, v₃, s₁, s₂, s₃, r, h₁, h₂, h₃, rfl, hne, hquote, hr⟩
  · intro hpart
    obtain ⟨v₁, v₂, v₃, s₁, s₂, s₃, r, h₁, h₂, h₃, rfl, hne, hquote, hr⟩ := hpart
    exact ⟨_, rfl, v₁, _, ⟨s₁, h₁, rfl, noDigitHead_comma _⟩, _, rfl, v₂, _,
      ⟨s₂, h₂, rfl, noDigitHead_comma _⟩, _, rfl, v₃, _, ⟨s₃, h₃, rfl, noDigitHead_comma _⟩, _,
      rfl, _, rfl, hne, hquote, r, rfl, hr⟩

private theorem clccNumber_getD_eq_iff {t number : Text} :
    (clccNumber t).getD [] = number ↔
      QuotedPart t number ∨ (∀ n, ¬ QuotedPart t n) ∧ number = [] := by
  simp only [← clccNumber_eq_some_iff]
  cases hnumber : clccNumber t with
  | none => simp [eq_comm]
  | some n => simp

private theorem clccScan_eq_some_iff {t number : Text} {dir : Int} :
    clccScan t = some (dir, number) ↔ LeadingEntry t dir number := by
  simp only [clccScan, LeadingEntry, Option.bind_eq_bind, Option.bind_eq_some_iff, Prod.exists,
    lit_eq_some_iff, lits_eq_some_iff, scanInt_skipSpace, scanInt_eq_some_iff, Option.some.injEq,
    Prod.mk.injEq, clccNumber_getD_eq_iff]
  constructor
  · intro hscan
    obtain ⟨_, rfl, id, _, ⟨s₁, h₁, rfl, -⟩, _, rfl, _, r, ⟨s₂, h₂, rfl, hr⟩, rfl, hnumber⟩ := hscan
    exact ⟨id, s₁, s₂, r, h₁, h₂, rfl, hr, hnumber⟩
  · intro hentry
    obtain ⟨id, s₁, s₂, r, h₁, h₂, rfl, hr, hnumber⟩ := hentry
    exact ⟨_, rfl, id, _, ⟨s₁, h₁, rfl, noDigitHead_comma _⟩, _, rfl, dir, r,
      ⟨s₂, h₂, rfl, hr⟩, rfl, hnumber⟩

/-- `+CLCC: <id>,1,<stat>,<mode>,<mpty>,"<number>",<type>`, the entry of an incoming call. -/
structure MtEntry where
  id : Digits
  stat : Digits
  mode : Digits
  mpty : Digits
  number : Text
  type : Digits
  unquoted : '"' ∉ number

def MtEntry.text (e : MtEntry) : Text :=
  clccPrefix ++ ' ' :: (e.id.text ++ ',' :: '1' :: ',' :: (e.stat.text ++ ',' :: (e.mode.text ++
    ',' :: (e.mpty.text ++ ',' :: '"' :: (e.number ++ '"' :: ',' :: e.type.text)))))

private theorem clccScan_mt (e : MtEntry) (back : Text) :
    clccScan (e.text ++ back) = some (1, e.number) := by
  have hone : ∀ t, scanInt ('1' :: ',' :: t) = some (1, ',' :: t) := fun t =>
    scanInt_digits ⟨['1'], by simp, List.all_eq_true.mp rfl⟩ (noDigitHead_comma t)
  have hdigits : ∀ (d : Digits) (t : Text),
      scanInt (d.text ++ ',' :: t) = some ((digitsValue d.text : Int), ',' :: t) := fun d t =>
    scanInt_digits d (noDigitHead_comma t)
  have hnumber : (clccNumber (',' :: (e.stat.text ++ ',' :: (e.mode.text ++ ',' :: (e.mpty.text ++
      ',' :: '"' :: (e.number ++ '"' :: ',' :: (e.type.text ++ back))))))).getD [] = e.number := by
    simp only [clccNumber, lit_cons, hdigits, Option.bind_eq_bind, Option.bind_some,
      scanUntil_append e.unquoted]
    by_cases hempty : e.number = [] <;> simp [hempty]
  have htext : e.text ++ back = clccPrefix ++ ' ' :: (e.id.text ++ ',' :: '1' :: ',' ::
      (e.stat.text ++ ',' :: (e.mode.text ++ ',' :: (e.mpty.text ++ ',' :: '"' ::
        (e.number ++ '"' :: ',' :: (e.type.text ++ back)))))) := by
    simp [MtEntry.text]
  rw [htext]
  simp only [clccScan, lits_append, Option.bind_eq_bind, Option.bind_some, scanInt_skipSpace,
    scanInt_space (c := ' ') rfl, hdigits, lit_cons, hone, hnumber]

/-- `char number[20]` -/
def numberSize : Nat := 20

/-- The scan stays inside `number`, and of a well-formed entry of an incoming call at any place
of the text the number is handed on. -/
def CallerIdOk (h : ClccHandler) (t : Text) : Prop :=
  (∀ r ∈ h.scanned t, r.2.length + 1 ≤ numberSize) ∧
    ∀ (front : Text) (e : MtEntry) (back : Text), t = front ++ (e.text ++ back) →
      h.handed t = some e.number

private theorem occurs_of_leadingEntry {t number : Text} {dir : Int}
    (h : LeadingEntry t dir number) :
    Occurs clccPrefix t := by
  obtain ⟨_, s₁, s₂, r, _, _, rfl, _⟩ := h
  exact (List.prefix_append _ _).isInfix

private theorem scanned_eq_some_iff {h : ClccHandler} {t number : Text} {dir : Int} :
    h.scanned t = some (dir, number) ↔ ¬ h.Skips t ∧ LeadingEntry t dir number := by
  unfold ClccHandler.scanned
  by_cases hreach : ¬ h.Skips t ∧ Occurs clccPrefix t
  · rw [if_pos hreach, clccScan_eq_some_iff]
    exact (and_iff_right hreach.1).symm
  · rw [if_neg hreach]
    refine iff_of_false (by simp) ?_
    intro hboth
    obtain ⟨hskip, hlead⟩ := hboth
    exact hreach ⟨hskip, occurs_of_leadingEntry hlead⟩

private theorem handed_eq_some_iff {h : ClccHandler} {t number : Text} :
    h.handed t = some number ↔ ¬ h.Skips t ∧ ∃ dir, dir ≠ 0 ∧ LeadingEntry t dir number := by
  simp only [ClccHandler.handed, Option.bind_eq_some_iff, Prod.exists, scanned_eq_some_iff]
  constructor
  · intro hhanded
    obtain ⟨dir, n, ⟨hskip, hlead⟩, hnumber⟩ := hhanded
    by_cases hdir : dir = 0
    · rw [if_pos hdir] at hnumber
      cases hnumber
    · rw [if_neg hdir] at hnumber
      obtain rfl := Option.some.inj hnumber
      exact ⟨hskip, dir, hdir, hlead⟩
  · intro hreach
    obtain ⟨hskip, dir, hdir, hlead⟩ := hreach
    exact ⟨dir, number, ⟨hskip, hlead⟩, if_neg hdir⟩

private theorem leadingEntry_mt (e : MtEntry) (back : Text) :
    LeadingEntry (e.text ++ back) 1 e.number :=
  clccScan_eq_some_iff.mp (clccScan_mt e back)

/-- A text is handled as it should be exactly when the number it begins with leaves room for the
terminator, and each entry of an incoming call is met by a handler that comes to it and stands at
the beginning, or has the number of another incoming call that does. -/
theorem callerIdOk_iff (h : ClccHandler) (t : Text) :
    CallerIdOk h t ↔
      (¬ h.Skips t → ∀ dir number, LeadingEntry t dir number → number.length < numberSize) ∧
        ∀ (front : Text) (e : MtEntry) (back : Text), t = front ++ (e.text ++ back) →
          ¬ h.Skips t ∧ (front = [] ∨ ∃ dir, dir ≠ 0 ∧ LeadingEntry t dir e.number) := by
  unfold CallerIdOk
  refine and_congr ?_ ?_
  · simp only [Option.mem_def, Prod.forall, scanned_eq_some_iff, and_imp]
    exact ⟨fun hb hskip dir number => hb dir number hskip,
      fun hb dir number hskip => hb hskip dir number⟩
  · refine forall_congr' fun front => forall_congr' fun e => forall_congr' fun back =>
      forall_congr' fun ht => ?_
    rw [handed_eq_some_iff]
    refine and_congr_right fun _ => ⟨.inr, ?_⟩
    rintro (rfl | hlead)
    · subst ht
      exact ⟨1, by decide, leadingEntry_mt e back⟩
    · exact hlead

/-- Twenty digits, with the terminator one more than the buffer holds; and an entry behind an
empty line. -/
theorem twentyDigits_overflow :
    ¬ CallerIdOk .unsolicited "+CLCC: 1,1,4,0,0,\"01234567890123456789\",129\r\n".toList ∧
      ¬ CallerIdOk .line "\r\n+CLCC: 1,1,4,0,0,\"10086\",129\r\n".toList := by
  refine ⟨fun hok => ?_, fun hok => ?_⟩
  · exact absurd (hok.1 (1, "01234567890123456789".toList) (by decide)) (by decide)
  · have hdigit : ∀ c : Char, c.isDigit = true → ∀ d ∈ [c], d.isDigit = true := by simp
    have hhanded : ClccHandler.line.handed "\r\n+CLCC: 1,1,4,0,0,\"10086\",129\r\n".toList =
        some "10086".toList :=
      hok.2 "\r\n".toList {
        id := ⟨['1'], by simp, hdigit _ rfl⟩
        stat := ⟨['4'], by simp, hdigit _ rfl⟩
        mode := ⟨['0'], by simp, hdigit _ rfl⟩
        mpty := ⟨['0'], by simp, hdigit _ rfl⟩
        number := "10086".toList
        type := ⟨"129".toList, by simp, List.all_eq_true.mp rfl⟩
        unquoted := by decide } "\r\n".toList rfl
    exact absurd hhanded (by decide)

end Leyu
