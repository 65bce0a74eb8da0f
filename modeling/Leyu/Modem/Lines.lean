import Leyu.Modem.Unsolicited

/-!
# Lines of the modem

The unsolicited lines as the modem writes them, and the notification each is taken for when it
is handled alone. On a text of several lines the handler finds at most one notification: NO
CARRIER anywhere, or the entry of the first line when no line has RING.
-/

namespace Leyu

open Framework

structure QuotedNumber where
  number : Text
  rest : Text
  unquoted : '"' ∉ number

/-- `+CLCC: <id>,<dir>,<stat>,<mode>,<mpty>,[<number>],<type>…` -/
structure ClccEntry where
  id : Digits
  dir : Digits
  stat : Digits
  mode : Digits
  mpty : Digits
  number : Option QuotedNumber

namespace ClccEntry

def rest (e : ClccEntry) : Text :=
  e.number.elim [] fun q => ',' :: '"' :: (q.number ++ '"' :: q.rest)

def text (e : ClccEntry) : Text :=
  clccPrefix ++ ' ' :: (e.id.text ++ ',' :: (e.dir.text ++ ',' :: (e.stat.text ++
    ',' :: (e.mode.text ++ ',' :: (e.mpty.text ++ e.rest)))))

def numberText (e : ClccEntry) : Text := e.number.elim [] (·.number)

end ClccEntry

/-- A line of the modem; one that mentions `+CLCC:` is an entry. -/
structure ModemLine where
  text : Text
  plain : Plain text
  entry : Occurs clccPrefix text → ∃ e : ClccEntry, text = e.text

private theorem scanInt_comma (d : Digits) (t : Text) :
    scanInt (d.text ++ ',' :: t) = some ((digitsValue d.text : Int), ',' :: t) :=
  scanInt_digits d (by simp [NoDigitHead])

private theorem clccScan_entry (e : ClccEntry) (t : Text) :
    clccScan (e.text ++ crlf ++ t) = some ((digitsValue e.dir.text : Int), e.numberText) := by
  have hnumber : (clccNumber (',' :: (e.stat.text ++ ',' :: (e.mode.text ++
      ',' :: (e.mpty.text ++ (e.rest ++ crlf ++ t)))))).getD [] = e.numberText := by
    unfold clccNumber
    simp only [lit_cons, scanInt_comma, Option.bind_eq_bind, Option.bind_some]
    cases hq : e.number with
    | none =>
      have hscan : scanInt (e.mpty.text ++ (e.rest ++ crlf ++ t)) =
          some ((digitsValue e.mpty.text : Int), e.rest ++ crlf ++ t) :=
        scanInt_digits e.mpty (by
          simp [NoDigitHead, ClccEntry.rest, hq, crlf])
      rw [hscan]
      simp [ClccEntry.rest, ClccEntry.numberText, hq, crlf, lit]
    | some q =>
      have hrest : e.rest ++ crlf ++ t =
          ',' :: '"' :: (q.number ++ '"' :: (q.rest ++ (crlf ++ t))) := by
        simp [ClccEntry.rest, hq]
      rw [hrest, scanInt_comma]
      simp only [Option.bind_some, lit_cons, scanUntil_append q.unquoted]
      by_cases hne : q.number = [] <;> simp [ClccEntry.numberText, hq, hne]
  have htext : e.text ++ crlf ++ t = clccPrefix ++ ' ' :: (e.id.text ++ ',' :: (e.dir.text ++
      ',' :: (e.stat.text ++ ',' :: (e.mode.text ++ ',' :: (e.mpty.text ++
        (e.rest ++ crlf ++ t)))))) := by
    simp [ClccEntry.text]
  rw [htext]
  unfold clccScan
  simp only [lits_append, Option.bind_eq_bind, Option.bind_some, scanInt_skipSpace,
    scanInt_space (c := ' ') rfl, scanInt_comma, lit_cons, hnumber]

private theorem prefix_of_clccScan {t : Text} {r : Int × Text} (h : clccScan t = some r) :
    clccPrefix <+: t := by
  unfold clccScan at h
  cases hl : lits clccPrefix t with
  | none => simp [hl] at h
  | some u => exact ⟨u, (lits_eq_some hl).symm⟩

private theorem noCarrier_plain : Plain noCarrier := by decide

private theorem ring_plain : Plain ring := by decide

private theorem clccPrefix_plain : Plain clccPrefix := by decide

private theorem clccScan_line (l : ModemLine) (t : Text) :
    clccScan (l.text ++ crlf ++ t) = clccScan (l.text ++ crlf) := by
  by_cases hoccurs : Occurs clccPrefix l.text
  · obtain ⟨e, he⟩ := l.entry hoccurs
    rw [he, clccScan_entry, ← List.append_nil (e.text ++ crlf), clccScan_entry]
  · have hnone : ∀ u, clccScan (l.text ++ crlf ++ u) = none := by
      intro u
      cases hscan : clccScan (l.text ++ crlf ++ u) with
      | none => rfl
      | some r =>
        have hpre := prefix_line clccPrefix_plain (prefix_of_clccScan hscan)
        exact absurd hpre.isInfix hoccurs
    rw [hnone t, ← List.append_nil (l.text ++ crlf), hnone []]

private theorem clccScan_of_notification {t : Text} {n : Notification}
    (h : clccNotification t = some n) :
    ∃ r, clccScan t = some r ∧ n ≠ .callEnded := by
  unfold clccNotification at h
  cases hscan : clccScan t with
  | none => simp [hscan] at h
  | some r =>
    refine ⟨r, rfl, ?_⟩
    rintro rfl
    by_cases hd : r.1 = 0
    · simp [hscan, hd] at h
    · by_cases hn : (CString.ofText r.2).text = [] <;> simp [hscan, hd, hn] at h

private theorem clccNotification_ne_callEnded (t : Text) :
    clccNotification t ≠ some .callEnded := by
  intro h
  obtain ⟨-, -, hne⟩ := clccScan_of_notification h
  exact hne rfl

/-- What a text is taken for: the end of the call where NO CARRIER occurs, else the entry it
starts with where RING does not occur. -/
theorem notification_eq_some_iff (t : Text) (n : Notification) :
    notification t = some n ↔ (Occurs noCarrier t ∧ n = .callEnded) ∨
      (¬ Occurs noCarrier t ∧ ¬ Occurs ring t ∧ clccNotification t = some n) := by
  unfold notification
  by_cases hn : Occurs noCarrier t
  · simp [hn, eq_comm]
  · by_cases hr : Occurs ring t
    · simp [hn, hr]
    · by_cases hc : Occurs clccPrefix t
      · simp [hn, hr, hc]
      · have hnone : clccNotification t ≠ some n := by
          intro h
          obtain ⟨r, hscan, -⟩ := clccScan_of_notification h
          exact hc (prefix_of_clccScan hscan).isInfix
        simp [hn, hr, hc, hnone]

theorem notification_callEnded_iff (t : Text) :
    notification t = some .callEnded ↔ Occurs noCarrier t := by
  rw [notification_eq_some_iff]
  simp [clccNotification_ne_callEnded]

def lineNotification (l : Text) : Option Notification := notification (l ++ crlf)

def ModemLine.notification (l : ModemLine) : Option Notification := lineNotification l.text

private theorem occurs_line {needle : Text} (hne : needle ≠ []) (hplain : Plain needle)
    (l : Text) : Occurs needle (l ++ crlf) ↔ Occurs needle l := by
  have h := occurs_line_iff hne hplain l []
  rw [List.append_nil] at h
  simpa [hne] using h

private theorem lineNotification_eq_some_iff (l : Text) (n : Notification) :
    lineNotification l = some n ↔ (Occurs noCarrier l ∧ n = .callEnded) ∨
      (¬ Occurs noCarrier l ∧ ¬ Occurs ring l ∧ clccNotification (l ++ crlf) = some n) := by
  rw [lineNotification, notification_eq_some_iff, occurs_line (by decide) noCarrier_plain,
    occurs_line (by decide) ring_plain]

theorem lineNotification_callEnded_iff (l : Text) :
    lineNotification l = some .callEnded ↔ Occurs noCarrier l := by
  rw [lineNotification, notification_callEnded_iff, occurs_line (by decide) noCarrier_plain]

theorem length_of_lineNotification {l : Text} {n : Notification}
    (h : lineNotification l = some n) : 6 ≤ l.length := by
  rcases (lineNotification_eq_some_iff l n).mp h with ⟨h, -⟩ | ⟨-, -, h⟩
  · exact Nat.le_trans (by decide) h.length_le
  · obtain ⟨r, hscan, -⟩ := clccScan_of_notification h
    have hpre := prefix_of_clccScan hscan
    rw [← List.append_nil (l ++ crlf)] at hpre
    exact Nat.le_trans (by decide) (prefix_line clccPrefix_plain hpre).length_le

theorem notification_joinLines_iff (ls : List ModemLine) (n : Notification) :
    notification (joinLines (ls.map (·.text))) = some n ↔
      ((∃ l ∈ ls, Occurs noCarrier l.text) ∧ n = .callEnded) ∨
      ((∀ l ∈ ls, ¬ Occurs noCarrier l.text) ∧ (∀ l ∈ ls, ¬ Occurs ring l.text) ∧
        ∃ l ∈ ls.head?, lineNotification l.text = some n) := by
  have hoccurs : ∀ needle : Text, needle ≠ [] → Plain needle →
      (Occurs needle (joinLines (ls.map (·.text))) ↔ ∃ l ∈ ls, Occurs needle l.text) := by
    intro needle hne hplain
    rw [occurs_joinLines_iff hne hplain]
    simp
  rw [notification_eq_some_iff, hoccurs _ (by decide) noCarrier_plain,
    hoccurs _ (by decide) ring_plain]
  simp only [not_exists, not_and]
  refine or_congr_right (and_congr_right fun hnc => and_congr_right fun hring => ?_)
  cases ls with
  | nil => simp [clccNotification, clccScan, lits, lit, clccPrefix]
  | cons l ls =>
    have hhead : clccNotification (joinLines ((l :: ls).map (·.text))) =
        clccNotification (l.text ++ crlf) := by
      rw [List.map_cons, joinLines_cons, clccNotification, clccScan_line, ← clccNotification]
    rw [hhead]
    simp [lineNotification_eq_some_iff, hnc l (by simp), hring l (by simp)]

end Leyu
