import BlockingStream.Proofs.Scan
import BlockingStream.Toml.Document

/-!
This module contains the proof that a document that was read holds its entries in the order in which they stand in the
text, and no key twice. At the top a statement does one of two things: it places an entry at the end, which stands where
the statement does, or it puts something into an entry that is there.
-/

namespace BlockingStream.Toml

namespace Entries

/--
What an addition at the top, or below an entry there, does to the entries.
-/
inductive Extends (key : String) (entries : Entries) : Entries → Prop where
  | added (v : Value) (h : key ∉ entries.map Prod.fst) : Extends key entries (entries ++ [(key, v)])
  | filled (v : Value) (h : key ∈ entries.map Prod.fst) : Extends key entries (entries.replace key v)

variable {key : String} {v : Value} {entries entries' : Entries} {way : Way} {origin : Origin} {path : List String}
  {f : Origin → Entries → Option Entries}

theorem lookup_eq_none_iff : entries.lookup key = none ↔ key ∉ entries.map Prod.fst := by
  simp only [List.lookup_eq_none_iff, List.mem_map, not_exists, not_and, bne_iff_ne]
  constructor
  . intro h entry hentry heq
    exact h entry hentry heq.symm
  . intro h entry hentry heq
    exact h entry hentry heq.symm

theorem lookup_isSome_iff : (entries.lookup key).isSome = true ↔ key ∈ entries.map Prod.fst := by
  rw [← Option.ne_none_iff_isSome, ne_eq, lookup_eq_none_iff, Decidable.not_not]

theorem erase_of_not_mem (h : key ∉ entries.map Prod.fst) : entries.erase key = entries := by
  rw [erase, List.filter_eq_self]
  intro entry hentry
  rw [decide_eq_true_iff]
  rintro rfl
  exact h (List.mem_map_of_mem hentry)

@[simp]
theorem map_fst_replace : (entries.replace key v).map Prod.fst = entries.map Prod.fst := by
  rw [replace, List.map_map]
  apply List.map_congr_left
  intro entry _
  by_cases hkey : entry.1 = key <;> simp [hkey]

theorem mem_erase {other : String}
    : other ∈ (entries.erase key).map Prod.fst ↔ other ∈ entries.map Prod.fst ∧ other ≠ key := by
  simp only [erase, List.mem_map, List.mem_filter]
  constructor
  . rintro ⟨entry, ⟨hmem, hne⟩, rfl⟩
    exact ⟨⟨entry, hmem, rfl⟩, by simpa using hne⟩
  . rintro ⟨⟨entry, hmem, rfl⟩, hne⟩
    exact ⟨entry, ⟨hmem, by simpa using hne⟩, rfl⟩

theorem mem_erase_append {other : String}
    : other ∈ (entries.erase key ++ [(key, v)]).map Prod.fst ↔
      other ∈ entries.map Prod.fst ∧ other ≠ key ∨ other = key := by
  rw [List.map_append, List.mem_append, mem_erase, List.map_singleton, List.mem_singleton]

theorem alter_extends (h : alter way f (key :: path) origin entries = some entries')
    : Extends key entries entries' := by
  rw [alter] at h
  split at h
  . next hlookup =>
    obtain ⟨inner, _, h⟩ := Option.bind_eq_some_iff.1 h
    cases h
    exact .added _ (lookup_eq_none_iff.1 hlookup)
  . next hlookup =>
    split at h
    . obtain ⟨inner, _, h⟩ := Option.bind_eq_some_iff.1 h
      cases h
      exact .filled _ (lookup_isSome_iff.1 (by rw [hlookup]; rfl))
    . contradiction
  . next hlookup =>
    split at h
    . obtain ⟨inner, _, h⟩ := Option.bind_eq_some_iff.1 h
      cases h
      exact .filled _ (lookup_isSome_iff.1 (by rw [hlookup]; rfl))
    . contradiction
  . contradiction

theorem addPair_extends {parts : List String} (h : addPair way (key :: parts) v origin entries = some entries')
    : Extends key entries entries' := by
  cases parts with
  | nil =>
    simp only [addPair, add, List.getLast?_singleton, List.dropLast_singleton, List.isEmpty_nil, if_true] at h
    split at h
    . contradiction
    . next hnew =>
      cases h
      rw [Bool.or_eq_true, not_or, Option.not_isSome_iff_eq_none] at hnew
      exact .added v (lookup_eq_none_iff.1 hnew.2)
  | cons next parts =>
    simp only [addPair, List.getLast?_cons_cons, List.dropLast_cons_cons, List.isEmpty_cons, Bool.false_eq_true,
      if_false] at h
    split at h
    . exact alter_extends h
    . contradiction

theorem openItem_extends (h : openItem key entries = some entries') : Extends key entries entries' := by
  rw [openItem] at h
  split at h
  . next hlookup =>
    cases h
    exact .added _ (lookup_eq_none_iff.1 hlookup)
  . next hlookup =>
    cases h
    exact .filled _ (lookup_isSome_iff.1 (by rw [hlookup]; rfl))
  . contradiction

theorem openTable_eq_some (h : openTable key entries = some entries')
    : ∃ v, entries' = entries.erase key ++ [(key, v)] := by
  rw [openTable] at h
  split at h
  . next hlookup =>
    cases h
    rw [erase_of_not_mem (lookup_eq_none_iff.1 hlookup)]
    exact ⟨_, rfl⟩
  . cases h
    exact ⟨_, rfl⟩
  . contradiction

end Entries

namespace Document

/--
The first one of two entries stands before the other one in the text, so that more of the text is left from it on.
-/
def Before (d : Document) (key other : String) : Prop :=
  ∃ m m', d.marks.lookup key = some m ∧ d.marks.lookup other = some m' ∧ m'.key.length < m.key.length

/--
The entries come in the order in which they stand in the text.
-/
structure InOrder (text : List Char) (d : Document) : Prop where
  stands : ∀ key ∈ d.entries.map Prod.fst, ∃ m, d.marks.lookup key = some m ∧ m.key <:+ text
  before : (d.entries.map Prod.fst).Pairwise d.Before

/--
What a statement that stands at `cs` does to a document at the top.
-/
inductive Grows (key : String) (cs : List Char) (d : Document) : Document → Prop where
  | placed (v : Value) (value : List Char) :
      Grows key cs d { entries := d.entries.erase key ++ [(key, v)], marks := (key, ⟨cs, value⟩) :: d.marks }
  | filled (v : Value) (h : key ∈ d.entries.map Prod.fst) :
      Grows key cs d { d with entries := d.entries.replace key v }

/--
A document of which the text `cs` is still to be read.
-/
structure InOrderUpTo (text cs : List Char) (d : Document) : Prop extends d.InOrder text where
  ahead : ∀ key ∈ d.entries.map Prod.fst, ∀ m, d.marks.lookup key = some m → cs.length < m.key.length

variable {d d' : Document} {text cs cs' rest : List Char} {key other : String} {path path' : List String}
  {entries : Entries}

theorem not_before_self : ¬ d.Before key key := by
  rintro ⟨m, m', hm, hm', hlt⟩
  rw [hm] at hm'
  cases hm'
  exact Nat.lt_irrefl _ hlt

theorem not_before_of_before (h : d.Before key other) : ¬ d.Before other key := by
  obtain ⟨m, m', hm, hm', hlt⟩ := h
  rintro ⟨m₂, m₂', hm₂, hm₂', hlt'⟩
  rw [hm'] at hm₂
  rw [hm] at hm₂'
  cases hm₂
  cases hm₂'
  omega

theorem InOrder.nodup (h : d.InOrder text) : (d.entries.map Prod.fst).Nodup :=
  h.before.imp fun hbefore => fun heq => not_before_self (heq ▸ hbefore)

theorem InOrderUpTo.mono (h : d.InOrderUpTo text cs) (hrest : rest <:+ cs) : d.InOrderUpTo text rest where
  toInOrder := h.toInOrder
  ahead key hkey m hm := Nat.lt_of_le_of_lt hrest.length_le (h.ahead key hkey m hm)

theorem Grows.mem (h : d.Grows key cs d') : key ∈ d'.entries.map Prod.fst := by
  cases h with
  | placed v value => simp
  | filled v h => simpa using h

theorem Grows.mem_of_mem (h : d.Grows key cs d') (hother : other ∈ d.entries.map Prod.fst)
    : other ∈ d'.entries.map Prod.fst := by
  cases h with
  | placed v value =>
    rw [Entries.mem_erase_append]
    by_cases heq : other = key
    . exact Or.inr heq
    . exact Or.inl ⟨hother, heq⟩
  | filled v _ => simpa using hother

theorem lookup_marks_of_ne {m : Mark} (h : other ≠ key)
    : List.lookup other ((key, m) :: d.marks) = d.marks.lookup other := by
  rw [List.lookup_cons, beq_false_of_ne h]

theorem before_marks_of_ne {first later : String} {m : Mark} (hfirst : first ≠ key) (hlater : later ≠ key)
    (h : d.Before first later)
    : Before { entries, marks := (key, m) :: d.marks } first later := by
  unfold Before
  rw [lookup_marks_of_ne hfirst, lookup_marks_of_ne hlater]
  exact h

theorem InOrderUpTo.placed (h : d.InOrderUpTo text cs) (v : Value) (value : List Char) (hcs : cs <:+ text)
    (hrest : rest.length < cs.length)
    : InOrderUpTo text rest
        { entries := d.entries.erase key ++ [(key, v)], marks := (key, ⟨cs, value⟩) :: d.marks } := by
  have hself : List.lookup key ((key, (⟨cs, value⟩ : Mark)) :: d.marks) = some ⟨cs, value⟩ := List.lookup_cons_self
  refine ⟨⟨?_, ?_⟩, ?_⟩
  . intro other hother
    rcases Entries.mem_erase_append.1 hother with ⟨hother, hne⟩ | rfl
    . rw [lookup_marks_of_ne hne]
      exact h.stands other hother
    . exact ⟨_, hself, hcs⟩
  . have herased := h.before.sublist ((List.filter_sublist (p := (·.1 ≠ key)) (l := d.entries)).map Prod.fst)
    rw [List.map_append, List.pairwise_append]
    refine ⟨?_, List.pairwise_singleton _ _, ?_⟩
    . apply herased.imp_of_mem
      intro first later hfirst hlater
      exact before_marks_of_ne (Entries.mem_erase.1 hfirst).2 (Entries.mem_erase.1 hlater).2
    . -- all that was there stands in what has been read, and the new entry behind it
      intro other hother last hlast
      obtain rfl : last = key := by simpa using hlast
      obtain ⟨hother, hne⟩ := Entries.mem_erase.1 hother
      obtain ⟨m, hm, _⟩ := h.stands other hother
      exact ⟨m, _, (lookup_marks_of_ne hne).trans hm, hself, h.ahead other hother m hm⟩
  . intro other hother m hm
    rcases Entries.mem_erase_append.1 hother with ⟨hother, hne⟩ | rfl
    . rw [lookup_marks_of_ne hne] at hm
      exact Nat.lt_trans hrest (h.ahead other hother m hm)
    . rw [hself] at hm
      cases hm
      exact hrest

theorem InOrderUpTo.filled (h : d.InOrderUpTo text cs) (v : Value) (hrest : rest.length < cs.length)
    : InOrderUpTo text rest { d with entries := d.entries.replace key v } := by
  refine ⟨⟨?_, ?_⟩, ?_⟩
  . rw [Entries.map_fst_replace]
    exact h.stands
  . rw [Entries.map_fst_replace]
    exact h.before
  . rw [Entries.map_fst_replace]
    intro other hother m hm
    exact Nat.lt_trans hrest (h.ahead other hother m hm)

theorem Grows.inOrderUpTo (grows : d.Grows key cs d') (h : d.InOrderUpTo text cs) (hcs : cs <:+ text)
    (hrest : rest.length < cs.length)
    : d'.InOrderUpTo text rest := by
  cases grows with
  | placed v value => exact h.placed v value hcs hrest
  | filled v _ => exact h.filled v hrest

theorem grows_mark (value : List Char) (h : Entries.Extends key d.entries entries)
    : d.Grows key cs { d.mark key ⟨cs, value⟩ with entries } := by
  cases h with
  | added v habsent =>
    have : d.Grows key cs _ := .placed v value
    rw [Entries.erase_of_not_mem habsent] at this
    rw [mark, if_neg fun hpresent => habsent (Entries.lookup_isSome_iff.1 hpresent)]
    exact this
  | filled v hpresent =>
    rw [mark, if_pos (Entries.lookup_isSome_iff.2 hpresent)]
    exact .filled v hpresent

theorem pairStatement_grows (hpath : ∀ first ∈ path.head?, first ∈ d.entries.map Prod.fst)
    (h : pairStatement path d cs = some (d', rest))
    : (∃ key, d.Grows key cs d') ∧ rest <:+ cs ∧ rest.length < cs.length := by
  simp only [pairStatement, Option.bind_eq_bind, Option.bind_eq_some_iff] at h
  obtain ⟨⟨key, behind⟩, hkey, h⟩ := h
  have hbehind := Scan.leaves_key List.suffix_rfl _ _ hkey
  dsimp only at h hbehind
  split at h
  . next value =>
    simp only [Option.bind_eq_some_iff] at h
    obtain ⟨⟨v, after⟩, hvalue, ⟨_, after'⟩, hend, entries, hentries, h⟩ := h
    cases h
    have hafter := Scan.leaves_value _ (Scan.suffix_skipSpaces List.suffix_rfl) _ _ hvalue
    have hrest := Scan.leaves_lineEnd hafter _ _ hend
    refine ⟨?_, hrest.trans (Scan.suffix_of_cons hbehind), ?_⟩
    . cases path with
      | nil =>
        rw [Entries.alter] at hentries
        cases key with
        | nil => contradiction
        | cons first parts =>
          refine ⟨first, ?_⟩
          have hextends := Entries.addPair_extends hentries
          cases parts with
          | nil => exact grows_mark _ hextends
          | cons next parts => exact grows_mark _ hextends
      | cons first path =>
        refine ⟨first, ?_⟩
        have hpresent := hpath first rfl
        cases Entries.alter_extends hentries with
        | added v habsent => exact absurd hpresent habsent
        | filled v _ => exact .filled v hpresent
    . have := hbehind.length_le
      have := hrest.length_le
      simp only [List.length_cons] at *
      omega
  . contradiction

theorem grows_opening {growing : Bool} {start : List Char} {last : String}
    : path.getLast? = some last →
      d.entries.alter .byHeader (fun _ => if growing then Entries.openItem last else Entries.openTable last)
        path.dropLast .header = some entries →
      ∃ key, path.head? = some key ∧
        d.Grows key cs
          { entries
            marks :=
              match path with
              | [single] =>
                if growing then (d.mark single ⟨cs, start⟩).marks else (single, ⟨cs, start⟩) :: d.marks
              | first :: _ => (d.mark first ⟨cs, cs⟩).marks
              | [] => d.marks } := by
  intro hlast h
  cases path with
  | nil => contradiction
  | cons first parts =>
    refine ⟨first, rfl, ?_⟩
    cases parts with
    | nil =>
      cases hlast
      rw [List.dropLast_singleton, Entries.alter] at h
      cases growing with
      | false =>
        obtain ⟨v, rfl⟩ := Entries.openTable_eq_some h
        exact .placed v start
      | true => exact grows_mark start (Entries.openItem_extends h)
    | cons next parts => exact grows_mark cs (Entries.alter_extends h)

theorem headerStatement_grows {growing : Bool} {start : List Char}
    (h : headerStatement growing start d cs = some (d', path, rest))
    : ∃ key cs', path.head? = some key ∧ d.Grows key cs' d' ∧ cs' <:+ cs ∧ rest <:+ cs' ∧
        rest.length < cs'.length := by
  have hspaces : Scan.skipSpaces cs <:+ cs := Scan.suffix_skipSpaces List.suffix_rfl
  simp only [headerStatement, Option.bind_eq_bind, Option.bind_eq_some_iff] at h
  obtain ⟨⟨key, behind⟩, hkey, h⟩ := h
  have hbehind := Scan.leaves_key List.suffix_rfl _ _ hkey
  dsimp only at h hbehind
  split at h
  . next closed =>
    simp only [Option.bind_some, Option.bind_eq_some_iff] at h
    obtain ⟨⟨_, after⟩, hend, last, hlast, entries, hentries, h⟩ := h
    cases h
    have hrest := Scan.leaves_lineEnd List.suffix_rfl _ _ hend
    obtain ⟨first, hfirst, hgrows⟩ := grows_opening hlast hentries
    exact ⟨first, Scan.skipSpaces cs, hfirst, hgrows, hspaces, hrest.trans (Scan.suffix_of_cons hbehind),
      Nat.lt_of_le_of_lt hrest.length_le hbehind.length_le⟩
  . next closed =>
    simp only [Option.bind_some, Option.bind_eq_some_iff, -eq_self] at h
    obtain ⟨⟨_, after⟩, hend, last, hlast, entries, hentries, h⟩ := h
    cases h
    replace hbehind := Scan.suffix_of_cons hbehind
    have hrest := Scan.leaves_lineEnd List.suffix_rfl _ _ hend
    obtain ⟨first, hfirst, hgrows⟩ := grows_opening hlast hentries
    exact ⟨first, Scan.skipSpaces cs, hfirst, hgrows, hspaces, hrest.trans (Scan.suffix_of_cons hbehind),
      Nat.lt_of_le_of_lt hrest.length_le hbehind.length_le⟩
  . contradiction

theorem statements_inOrder (fuel : Nat) (h : statements fuel path d cs = .ok d') (hd : d.InOrderUpTo text cs)
    (hpath : ∀ first ∈ path.head?, first ∈ d.entries.map Prod.fst) (hcs : cs <:+ text)
    : d'.InOrder text := by
  induction fuel generalizing path d cs with
  | zero => contradiction
  | succ fuel ih =>
    have hspaces : Scan.skipSpaces cs <:+ cs := Scan.suffix_skipSpaces List.suffix_rfl
    -- what a header statement leaves, and what one without a header leaves, is read on
    have hheader : ∀ {growing start inner d₁ path₁ rest}, inner <:+ cs →
        headerStatement growing start d inner = some (d₁, path₁, rest) → statements fuel path₁ d₁ rest = .ok d' →
        d'.InOrder text := by
      intro growing start inner d₁ path₁ rest hinner hstatement hrun
      obtain ⟨key, cs', hfirst, hgrows, hcs', hrest, hlt⟩ := headerStatement_grows hstatement
      have hat := hcs'.trans (hinner.trans hcs)
      refine ih hrun (hgrows.inOrderUpTo (hd.mono (hcs'.trans hinner)) hat hlt) ?_ (hrest.trans hat)
      intro first hmem
      rw [hfirst] at hmem
      cases hmem
      exact hgrows.mem
    have hskip : ∀ {rest}, rest <:+ cs → statements fuel path d rest = .ok d' → d'.InOrder text := fun hrest hrun =>
      ih hrun (hd.mono hrest) hpath (hrest.trans hcs)
    rw [statements] at h
    split at h
    . cases h
      exact hd.toInOrder
    . next heq =>
      rw [heq] at hspaces
      split at h
      . next hstatement => exact hheader (Scan.suffix_of_cons (Scan.suffix_of_cons hspaces)) hstatement h
      . contradiction
    . next heq =>
      rw [heq] at hspaces
      split at h
      . next hstatement => exact hheader (Scan.suffix_of_cons hspaces) hstatement h
      . contradiction
    . split at h
      . next hbreak => exact hskip (Scan.leaves_lineBreak hspaces _ _ hbreak) h
      . split at h
        . next hend => exact hskip (Scan.leaves_lineEnd hspaces _ _ hend) h
        . contradiction
      . split at h
        . next hstatement =>
          obtain ⟨⟨key, hgrows⟩, hrest, hlt⟩ := pairStatement_grows hpath hstatement
          have hat := hspaces.trans hcs
          refine ih h (hgrows.inOrderUpTo (hd.mono hspaces) hat hlt) ?_ (hrest.trans hat)
          intro first hmem
          exact hgrows.mem_of_mem (hpath first hmem)
        . contradiction

/--
The entries of a document come in the order in which they stand in the text.
-/
theorem inOrder_of_read (h : Document.read cs = .ok d) : d.InOrder cs := by
  have hempty : ∀ body, ({} : Document).InOrderUpTo cs body := fun _ => ⟨⟨by simp, .nil⟩, by simp⟩
  refine statements_inOrder _ h (hempty _) (by simp) ?_
  split
  . exact List.suffix_cons _ _
  . exact List.suffix_rfl

end Document

/--
What is assumed of a reader: in a document that it has read no key comes up twice, and the entries come in the order
in which they stand in the text.
-/
class LawfulReader (read : Reader) : Prop where
  nodup {text : String} {d : Document} : read text = .ok d → (d.entries.map Prod.fst).Nodup
  inOrder {text : String} {d : Document} : read text = .ok d → d.InOrder text.toList

instance : LawfulReader Document.reader where
  nodup h := (Document.inOrder_of_read h).nodup
  inOrder h := Document.inOrder_of_read h

end BlockingStream.Toml
