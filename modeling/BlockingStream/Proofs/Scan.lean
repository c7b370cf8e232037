import BlockingStream.Toml.Nested

/-!
This module contains the proof that scanners only ever take something off the front: what a scanner leaves is the end
of the text that it was given.
-/

namespace BlockingStream.Toml.Scan

variable {α β : Type} {text cs rest : List Char} {c : Char}

def Leaves (text : List Char) (found : Option (α × List Char)) : Prop :=
  ∀ x rest, found = some (x, rest) → rest <:+ text

theorem leaves_none : Leaves (α := α) text none := by
  intro x rest h
  contradiction

theorem leaves_some {x : α} (h : rest <:+ text) : Leaves text (some (x, rest)) := by
  intro x rest heq
  cases heq
  exact h

theorem leaves_bind {value : Option α} {f : α → Option (β × List Char)} (hf : ∀ x, Leaves text (f x))
    : Leaves text (value >>= f) := by
  cases value with
  | none => exact leaves_none
  | some x => exact hf x

theorem Leaves.bind {found : Option (α × List Char)} {f : α × List Char → Option (β × List Char)}
    (h : Leaves text found) (hf : ∀ x rest, rest <:+ text → Leaves text (f (x, rest)))
    : Leaves text (found >>= f) := by
  cases found with
  | none => exact leaves_none
  | some found => exact hf found.1 found.2 (h _ _ rfl)

theorem Leaves.map {found : Option (α × List Char)} {f : α × List Char → β} (h : Leaves text found)
    : Leaves text (found.map fun found => (f found, found.2)) := by
  intro x rest heq
  obtain ⟨found, hfound, heq⟩ := Option.map_eq_some_iff.1 heq
  cases heq
  exact h _ _ hfound

theorem Leaves.getD {found : Option (α × List Char)} (h : Leaves text found) (hcs : cs <:+ text)
    : (found.map (·.2)).getD cs <:+ text := by
  cases found with
  | none => exact hcs
  | some found => exact h _ _ rfl

theorem suffix_of_cons (h : c :: cs <:+ text) : cs <:+ text := (List.suffix_cons c cs).trans h

theorem suffix_skipSpaces (h : cs <:+ text) : skipSpaces cs <:+ text := (List.dropWhile_suffix _).trans h

theorem leaves_lineBreak (h : cs <:+ text) : Leaves text (lineBreak cs) := by
  unfold lineBreak
  split
  . exact leaves_some (suffix_of_cons h)
  . exact leaves_some (suffix_of_cons (suffix_of_cons h))
  . exact leaves_none

theorem suffix_skipComment (h : cs <:+ text) : skipComment cs <:+ text := by
  unfold skipComment
  split
  . exact (List.dropWhile_suffix _).trans (suffix_of_cons h)
  . exact h

theorem leaves_lineEnd (h : cs <:+ text) : Leaves text (lineEnd cs) := by
  unfold lineEnd
  split
  . exact leaves_some (List.nil_suffix)
  . exact leaves_lineBreak (suffix_skipComment (suffix_skipSpaces h))

theorem suffix_skipFiller_go (fuel : Nat) (h : cs <:+ text) : skipFiller.go fuel cs <:+ text := by
  induction fuel generalizing cs with
  | zero => exact h
  | succ fuel ih =>
    have hspaces := suffix_skipSpaces h
    unfold skipFiller.go
    split
    . next comment hcomment =>
      rw [hcomment] at hspaces
      split
      . next hbreak =>
        exact ih (leaves_lineBreak ((List.dropWhile_suffix _).trans (suffix_of_cons hspaces)) _ _ hbreak)
      . exact hspaces
    . split
      . next hbreak => exact ih (leaves_lineBreak hspaces _ _ hbreak)
      . exact hspaces

theorem suffix_skipFiller (h : cs <:+ text) : skipFiller cs <:+ text := suffix_skipFiller_go _ h

theorem leaves_fixedDigits (base count : Nat) (h : cs <:+ text) : Leaves text (fixedDigits base count cs) := by
  induction count generalizing cs with
  | zero => exact leaves_some h
  | succ count ih =>
    cases cs with
    | nil => exact leaves_none
    | cons c cs =>
      apply leaves_bind
      intro d
      apply (ih (suffix_of_cons h)).bind
      intro ds rest hrest
      exact leaves_some hrest

theorem leaves_moreDigits (base : Nat) (found : List Nat) (h : cs <:+ text)
    : Leaves text (moreDigits base found cs) := by
  induction found, cs using moreDigits.induct base with
  | case1 => exact leaves_some h
  | case2 found c cs d hdigit ih =>
    rw [moreDigits, hdigit]
    exact ih (suffix_of_cons (suffix_of_cons h))
  | case3 found c cs hdigit =>
    rw [moreDigits, hdigit]
    exact leaves_none
  | case4 => exact leaves_none
  | case5 found c cs _ _ d hdigit ih =>
    rw [moreDigits, hdigit]
    . exact ih (suffix_of_cons h)
    . assumption
    . assumption
  | case6 found c cs _ _ hdigit =>
    rw [moreDigits, hdigit]
    . exact leaves_some h
    . assumption
    . assumption

theorem leaves_digits (base : Nat) (h : cs <:+ text) : Leaves text (digits base cs) := by
  cases cs with
  | nil => exact leaves_none
  | cons c cs =>
    apply leaves_bind
    intro d
    exact leaves_moreDigits base [d] (suffix_of_cons h)

/-! Strings and keys -/

theorem leaves_codePoint (count : Nat) (h : cs <:+ text) : Leaves text (codePoint count cs) := by
  apply (leaves_fixedDigits 16 count h).bind
  intro ds rest hrest
  dsimp only
  split
  . exact leaves_some hrest
  . exact leaves_none

theorem leaves_escape (h : cs <:+ text) : Leaves text (escape cs) := by
  unfold escape
  split
  case h_8 => exact leaves_codePoint 4 (suffix_of_cons h)
  case h_9 => exact leaves_codePoint 8 (suffix_of_cons h)
  case h_10 => exact leaves_none
  all_goals exact leaves_some (suffix_of_cons h)

theorem leaves_basicBody (fuel : Nat) (found : List Char) (h : cs <:+ text)
    : Leaves text (basicBody fuel found cs) := by
  induction fuel generalizing found cs with
  | zero => exact leaves_none
  | succ fuel ih =>
    cases cs with
    | nil => exact leaves_none
    | cons c cs =>
      have hrest := suffix_of_cons h
      unfold basicBody
      split
      . exact leaves_some hrest
      . split
        . apply (leaves_escape hrest).bind
          intro e rest hrest
          exact ih (e :: found) hrest
        . split
          . exact ih (c :: found) hrest
          . exact leaves_none

theorem leaves_literalBody (found : List Char) (h : cs <:+ text) : Leaves text (literalBody found cs) := by
  induction cs generalizing found with
  | nil => exact leaves_none
  | cons c cs ih =>
    have hrest := suffix_of_cons h
    unfold literalBody
    split
    . exact leaves_some hrest
    . split
      . exact ih (c :: found) hrest
      . exact leaves_none

theorem suffix_continuation_go (fuel : Nat) (h : cs <:+ text) : continuation.go fuel cs <:+ text := by
  induction fuel generalizing cs with
  | zero => exact h
  | succ fuel ih =>
    unfold continuation.go
    split
    . next hbreak => exact ih (leaves_lineBreak (suffix_skipSpaces h) _ _ hbreak)
    . exact suffix_skipSpaces h

theorem suffix_continuation (h : cs <:+ text) (hrest : continuation cs = some rest) : rest <:+ text := by
  obtain ⟨⟨_, behind⟩, hbreak, heq⟩ := Option.bind_eq_some_iff.1 hrest
  cases heq
  exact suffix_continuation_go _ (leaves_lineBreak (suffix_skipSpaces h) _ _ hbreak)

theorem leaves_linesBody (quote : Char) (escapes : Bool) (fuel : Nat) (found : List Char) (h : cs <:+ text)
    : Leaves text (linesBody quote escapes fuel found cs) := by
  induction fuel generalizing found cs with
  | zero => exact leaves_none
  | succ fuel ih =>
    cases cs with
    | nil => exact leaves_none
    | cons c cs =>
      have hrest := suffix_of_cons h
      rw [linesBody]
      split
      . -- up to two quotes of those behind the closing ones go with the string
        exact leaves_some (((List.drop_suffix _ _).trans (List.drop_suffix _ _)).trans hrest)
      . split
        . split
          . next hcontinued => exact ih found (suffix_continuation hrest hcontinued)
          . apply (leaves_escape hrest).bind
            intro e rest hrest
            exact ih (e :: found) hrest
        . split
          . exact ih (c :: found) hrest
          . apply (leaves_lineBreak h).bind
            intro _ rest hrest
            exact ih ('\n' :: found) hrest

theorem suffix_skipFirstBreak (h : cs <:+ text) : skipFirstBreak cs <:+ text := by
  unfold skipFirstBreak
  split
  . next hbreak => exact leaves_lineBreak h _ _ hbreak
  . exact h

theorem leaves_quotedString (h : cs <:+ text) : Leaves text (quotedString cs) := by
  unfold quotedString
  split
  . exact leaves_linesBody _ _ _ _ (suffix_skipFirstBreak (suffix_of_cons (suffix_of_cons (suffix_of_cons h))))
  . exact leaves_basicBody _ _ (suffix_of_cons h)
  . exact leaves_linesBody _ _ _ _ (suffix_skipFirstBreak (suffix_of_cons (suffix_of_cons (suffix_of_cons h))))
  . exact leaves_literalBody _ (suffix_of_cons h)
  . exact leaves_none

theorem leaves_simpleKey (h : cs <:+ text) : Leaves text (simpleKey cs) := by
  unfold simpleKey
  split
  . exact leaves_basicBody _ _ (suffix_of_cons h)
  . exact leaves_literalBody _ (suffix_of_cons h)
  . dsimp only
    split
    . exact leaves_none
    . exact leaves_some ((List.dropWhile_suffix _).trans h)

theorem leaves_keyParts (fuel : Nat) (h : cs <:+ text) : Leaves text (keyParts fuel cs) := by
  induction fuel generalizing cs with
  | zero => exact leaves_none
  | succ fuel ih =>
    apply (leaves_simpleKey (suffix_skipSpaces h)).bind
    intro part rest hrest
    have hspaces := suffix_skipSpaces hrest
    dsimp only
    split
    . next behind hpoint =>
      rw [hpoint] at hspaces
      apply (ih (suffix_of_cons hspaces)).bind
      intro parts rest hrest
      exact leaves_some hrest
    . exact leaves_some hspaces

theorem leaves_key (h : cs <:+ text) : Leaves text (key cs) := leaves_keyParts _ h

/-! Numbers -/

theorem suffix_sign (h : cs <:+ text) : (sign cs).2 <:+ text := by
  unfold sign
  split
  . exact suffix_of_cons h
  . exact suffix_of_cons h
  . exact h

theorem leaves_wholeDigits (h : cs <:+ text) : Leaves text (wholeDigits cs) := by
  unfold wholeDigits
  split
  . exact leaves_some (suffix_of_cons h)
  . exact leaves_digits 10 h

theorem leaves_basedInteger (base : Nat) (h : cs <:+ text) : Leaves text (basedInteger base cs) := by
  apply (leaves_digits base h).bind
  intro ds rest hrest
  apply leaves_bind
  intro v
  exact leaves_some hrest

theorem leaves_exponent (h : cs <:+ text) : Leaves text (exponent cs) := by
  unfold exponent
  split
  . next c cs =>
    split
    . apply (leaves_digits 10 (suffix_sign (suffix_of_cons h))).bind
      intro ds rest hrest
      exact leaves_some hrest
    . exact leaves_some h
  . exact leaves_some h

theorem leaves_fraction (h : cs <:+ text) : Leaves text (fraction cs) := by
  unfold fraction
  split
  . apply (leaves_digits 10 (suffix_of_cons h)).bind
    intro ds rest hrest
    exact leaves_some hrest
  . exact leaves_some h

theorem leaves_decimal (h : cs <:+ text) : Leaves text (decimal cs) := by
  apply (leaves_wholeDigits (suffix_sign h)).bind
  intro whole cs h
  apply (leaves_fraction h).bind
  intro places cs h
  apply (leaves_exponent h).bind
  intro exp cs h
  dsimp only
  split
  . apply leaves_bind
    intro v
    exact leaves_some h
  . apply leaves_bind
    intro v
    exact leaves_some h

theorem leaves_special (h : cs <:+ text) : Leaves text (special cs) := by
  have hsign := suffix_sign h
  unfold special
  split
  . next heq =>
    rw [heq] at hsign
    exact leaves_some (suffix_of_cons (suffix_of_cons (suffix_of_cons hsign)))
  . next heq =>
    rw [heq] at hsign
    exact leaves_some (suffix_of_cons (suffix_of_cons (suffix_of_cons hsign)))
  . exact leaves_none

theorem leaves_number (h : cs <:+ text) : Leaves text (number cs) := by
  unfold number
  split
  . exact leaves_basedInteger 16 (suffix_of_cons (suffix_of_cons h))
  . exact leaves_basedInteger 8 (suffix_of_cons (suffix_of_cons h))
  . exact leaves_basedInteger 2 (suffix_of_cons (suffix_of_cons h))
  . split
    . next hfound =>
      rw [← hfound]
      exact leaves_special h
    . exact leaves_decimal h

/-! Dates and times -/

theorem leaves_numberWithin (count lo hi : Nat) (h : cs <:+ text) : Leaves text (numberWithin count lo hi cs) := by
  apply (leaves_fixedDigits 10 count h).bind
  intro ds rest hrest
  dsimp only
  split
  . exact leaves_some hrest
  . exact leaves_none

theorem leaves_char (c : Char) (h : cs <:+ text) : Leaves text (char c cs) := by
  unfold char
  split
  . exact leaves_none
  . split
    . exact leaves_some (suffix_of_cons h)
    . exact leaves_none

theorem leaves_date (h : cs <:+ text) : Leaves text (date cs) := by
  apply (leaves_numberWithin 4 0 9999 h).bind
  intro year cs h
  apply (leaves_char '-' h).bind
  intro _ cs h
  apply (leaves_numberWithin 2 1 12 h).bind
  intro month cs h
  apply (leaves_char '-' h).bind
  intro _ cs h
  apply (leaves_numberWithin 2 1 (daysOfMonth year month) h).bind
  intro _ cs h
  exact leaves_some h

theorem suffix_skipSecondFraction (h : cs <:+ text) : skipSecondFraction cs <:+ text := by
  unfold skipSecondFraction
  split
  . split
    . exact (List.dropWhile_suffix _).trans (suffix_of_cons h)
    . exact h
  . exact h

theorem leaves_time (h : cs <:+ text) : Leaves text (time cs) := by
  apply (leaves_numberWithin 2 0 23 h).bind
  intro _ cs h
  apply (leaves_char ':' h).bind
  intro _ cs h
  apply (leaves_numberWithin 2 0 59 h).bind
  intro _ cs h
  apply (leaves_char ':' h).bind
  intro _ cs h
  apply (leaves_numberWithin 2 0 60 h).bind
  intro _ cs h
  exact leaves_some (suffix_skipSecondFraction h)

theorem leaves_timeOffset (h : cs <:+ text) : Leaves text (timeOffset cs) := by
  unfold timeOffset
  split
  . split
    . exact leaves_some (suffix_of_cons h)
    . split
      . apply (leaves_numberWithin 2 0 23 (suffix_of_cons h)).bind
        intro _ cs h
        apply (leaves_char ':' h).bind
        intro _ cs h
        apply (leaves_numberWithin 2 0 59 h).bind
        intro _ cs h
        exact leaves_some h
      . exact leaves_none
  . exact leaves_none

theorem leaves_timeAfterDate (h : cs <:+ text) : Leaves text (timeAfterDate cs) := by
  unfold timeAfterDate
  split
  . split
    . apply (leaves_time (suffix_of_cons h)).bind
      intro _ cs h
      exact leaves_some ((leaves_timeOffset h).getD h)
    . exact leaves_none
  . exact leaves_none

theorem leaves_moment (h : cs <:+ text) : Leaves text (moment cs) := by
  unfold moment
  split
  . next hdate =>
    have hrest := leaves_date h _ _ hdate
    exact leaves_some ((leaves_timeAfterDate hrest).getD hrest)
  . exact (leaves_time h).map

/-! Values -/

theorem leaves_arrayItems {item : Scan Value} (hitem : ∀ {cs}, cs <:+ text → Leaves text (item cs)) (fuel : Nat)
    (found : List Value) (h : cs <:+ text)
    : Leaves text (arrayItems item fuel found cs) := by
  induction fuel generalizing found cs with
  | zero => exact leaves_none
  | succ fuel ih =>
    have hfiller := suffix_skipFiller h
    unfold arrayItems
    split
    . next hclosed =>
      rw [hclosed] at hfiller
      exact leaves_some (suffix_of_cons hfiller)
    . apply (hitem hfiller).bind
      intro v rest hrest
      have hbehind := suffix_skipFiller hrest
      dsimp only
      split
      . next hcomma =>
        rw [hcomma] at hbehind
        exact ih (v :: found) (suffix_of_cons hbehind)
      . next hclosed =>
        rw [hclosed] at hbehind
        exact leaves_some (suffix_of_cons hbehind)
      . exact leaves_none

theorem leaves_pair {value : Scan Value} (hvalue : ∀ {cs}, cs <:+ text → Leaves text (value cs)) (h : cs <:+ text)
    : Leaves text (pair value cs) := by
  apply (leaves_key h).bind
  intro k rest hrest
  dsimp only
  split
  . apply (hvalue (suffix_skipSpaces (suffix_of_cons hrest))).bind
    intro v rest hrest
    exact leaves_some (suffix_skipSpaces hrest)
  . exact leaves_none

theorem leaves_bracedPairs {value : Scan Value} (hvalue : ∀ {cs}, cs <:+ text → Leaves text (value cs)) (fuel : Nat)
    (entries : Entries) (h : cs <:+ text)
    : Leaves text (bracedPairs value fuel entries cs) := by
  induction fuel generalizing entries cs with
  | zero => exact leaves_none
  | succ fuel ih =>
    apply (leaves_pair hvalue h).bind
    rintro ⟨k, v⟩ rest hrest
    apply leaves_bind
    intro entries
    split
    . exact ih entries (suffix_of_cons hrest)
    . exact leaves_some (suffix_of_cons hrest)
    . exact leaves_none

theorem leaves_scalar (h : cs <:+ text) : Leaves text (scalar cs) := by
  unfold scalar
  split
  . apply (leaves_quotedString h).bind
    intro s rest hrest
    exact leaves_some hrest
  . apply (leaves_quotedString h).bind
    intro s rest hrest
    exact leaves_some hrest
  . exact leaves_some (suffix_of_cons (suffix_of_cons (suffix_of_cons (suffix_of_cons h))))
  . exact leaves_some (suffix_of_cons (suffix_of_cons (suffix_of_cons (suffix_of_cons (suffix_of_cons h)))))
  . split
    . next hfound =>
      rw [← hfound]
      exact leaves_moment h
    . exact leaves_number h

theorem leaves_value (depth : Nat) (h : cs <:+ text) : Leaves text (value depth cs) := by
  induction depth generalizing cs with
  | zero =>
    unfold value
    split
    . exact leaves_none
    . exact leaves_none
    . contradiction
    . contradiction
    . exact leaves_scalar h
  | succ depth ih =>
    unfold value
    split
    . contradiction
    . contradiction
    . next heq =>
      cases heq
      apply (leaves_arrayItems ih _ _ (suffix_of_cons h)).bind
      intro items rest hrest
      exact leaves_some hrest
    . next heq =>
      cases heq
      have hspaces := suffix_skipSpaces (suffix_of_cons h)
      split
      . next hclosed =>
        rw [hclosed] at hspaces
        exact leaves_some (suffix_of_cons hspaces)
      . apply (leaves_bracedPairs ih _ _ (suffix_of_cons h)).bind
        intro entries rest hrest
        exact leaves_some hrest
    . exact leaves_scalar h

end BlockingStream.Toml.Scan
