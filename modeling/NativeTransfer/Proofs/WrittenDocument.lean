import NativeTransfer.Proofs.WrittenNumber
import NativeTransfer.Proofs.WrittenString

/-!
# A written document reads back

A document of tables with bare names reads back as those tables, each key with the value that was
written for it. The reader builds its root table line by line; the tables read so far, in order, are
all that there is to say of it.

## Progress

The reader's state between two lines is the root table as far as it was read, with the place at
which the next entry goes (`Progress`). `ComesTo` says which root table the rest of a text comes to
from there, for any fuel that is enough. A line of the writer's moves the progress on by one step,
so a document is an induction on tables, and within each an induction on entries.

That an entry goes where it should depends on its key not being there yet, and that a header opens a
new table on no table of that name being there. Both are carried along as what was read so far, next
to what remains.
-/

namespace NativeTransfer.Toml

/-! ## Values -/

/-- What an entry reads back as. -/
def Entry.value : Entry → Value
  | .text s => .text s
  | .integer n => .integer n
  | .texts items => .array (items.map .text)

/-- An integer has to fit 64 bits. -/
def Entry.Fits : Entry → Prop
  | .integer n => fitting? n = some n
  | _ => True

theorem stringText_cons (s : List Char) :
    ∃ q more, stringText s = q :: more ∧ (q = '"' ∨ q = '\'') := by
  rw [stringText]
  split
  · exact ⟨'"', _, rfl, .inl rfl⟩
  · exact ⟨'\'', _, rfl, .inr rfl⟩
  · exact ⟨'"', _, rfl, .inl rfl⟩
  · exact ⟨'\'', _, rfl, .inr rfl⟩

theorem scalar_quote {q : Char} (hq : q = '"' ∨ q = '\'') (cs : List Char) :
    scalar (q :: cs) = (text (q :: cs)).map fun p ↦ (.text (String.ofList p.1), p.2) := by
  rcases hq with rfl | rfl
  · rfl
  · rfl

theorem value_scalar {c : Char} (harray : c ≠ '[') (htable : c ≠ '{') (depth : Nat)
    (cs : List Char) : value depth (c :: cs) = scalar (c :: cs) := by
  cases depth with
  | zero => rfl
  | succ depth =>
    rw [value]
    · exact fun _ h ↦ harray (List.cons.inj h).1
    · exact fun _ h ↦ htable (List.cons.inj h).1

theorem value_stringText (depth : Nat) (s : String) {rest : List Char}
    (hdouble : rest.head? ≠ some '"') (hsingle : rest.head? ≠ some '\'') :
    value depth (stringText s.toList ++ rest) = some (.text s, rest) := by
  have htext := text_stringText s.toList hdouble hsingle
  obtain ⟨q, more, hs, hq⟩ := stringText_cons s.toList
  have hne {c : Char} (hd : c ≠ '"') (hs : c ≠ '\'') : q ≠ c := by
    rintro rfl
    exact hq.elim hd hs
  rw [hs, List.cons_append] at htext ⊢
  rw [value_scalar (hne (by decide) (by decide)) (hne (by decide) (by decide)), scalar_quote hq,
    htext, Option.map_some, String.ofList_toList]

theorem value_toString (depth : Nat) {n : Int} (hn : fitting? n = some n) (rest : List Char) :
    value depth ((toString n).toList ++ '\n' :: rest) = some (.integer n, '\n' :: rest) := by
  have hscalar : scalar ((toString n).toList ++ '\n' :: rest) = _ := scalar_toString hn
  obtain ⟨c, cs, hcs, hc⟩ := toString_cons n
  rw [hcs, List.cons_append] at hscalar ⊢
  rw [value_scalar (ne_of_number hc rfl (by decide)) (ne_of_number hc rfl (by decide)), hscalar]

/-! ## Arrays -/

section

variable {c : Char} {cs more : List Char} (hcomment : c ≠ '#') (hn : c ≠ '\n') (hr : c ≠ '\r')

include hcomment hn hr

theorem skipLines_of_skipBlanks (h : skipBlanks cs = c :: more) (fuel : Nat) :
    skipLines (fuel + 1) cs = c :: more := by
  rw [skipLines, h]
  split
  · next heq => exact absurd (List.cons.inj heq).1 hcomment
  · rw [lineEnd?_cons hn hr]

theorem skipLines_cons (hblank : isBlank c = false) (fuel : Nat) :
    skipLines fuel (c :: more) = c :: more := by
  cases fuel with
  | zero => rfl
  | succ fuel => exact skipLines_of_skipBlanks hcomment hn hr (skipBlanks_cons hblank more) fuel

end

theorem skipBlanks_stringText (s cs : List Char) :
    skipBlanks (stringText s ++ cs) = stringText s ++ cs := by
  obtain ⟨q, tail, hs, hq⟩ := stringText_cons s
  rw [hs]
  rcases hq with rfl | rfl
  · exact skipBlanks_cons rfl _
  · exact skipBlanks_cons rfl _

theorem skipLines_stringText {s cs more : List Char} (h : skipBlanks cs = stringText s ++ more)
    (fuel : Nat) : skipLines (fuel + 1) cs = stringText s ++ more := by
  obtain ⟨q, tail, hs, hq⟩ := stringText_cons s
  rw [hs, List.cons_append] at h ⊢
  rcases hq with rfl | rfl
  · exact skipLines_of_skipBlanks (by decide) (by decide) (by decide) h fuel
  · exact skipLines_of_skipBlanks (by decide) (by decide) (by decide) h fuel

/-- The next line, which is indented. -/
theorem skipLines_indented (fuel : Nat) (s cs : List Char) :
    skipLines (fuel + 2) ('\n' :: ([' ', ' ', ' ', ' '] ++ (stringText s ++ cs))) =
      stringText s ++ cs := skipLines_stringText (skipBlanks_stringText s cs) fuel

/-- The lines of an array's items. -/
def itemLines (items : List String) : List Char :=
  items.flatMap fun s ↦ [' ', ' ', ' ', ' '] ++ stringText s.toList ++ [',', '\n']

section

variable {read : Reader Value} (hread : ∀ (s : String) (rest : List Char),
  rest.head? ≠ some '"' → rest.head? ≠ some '\'' →
    read (stringText s.toList ++ rest) = some (.text s, rest))

include hread

/-- A text in an array, and what follows it. -/
theorem arrayItems_text {s : String} {d : Char} {cs more : List Char}
    (hskip : skipLines cs.length cs = stringText s.toList ++ d :: more) (hd : d = ',' ∨ d = ']')
    (fuel : Nat) : arrayItems read (fuel + 1) cs =
      if d = ',' then (arrayItems read fuel more).map fun p ↦ (.text s :: p.1, p.2)
      else some ([.text s], more) := by
  have hitem := hread s (d :: more) (by rcases hd with rfl | rfl <;> simp)
    (by rcases hd with rfl | rfl <;> simp)
  obtain ⟨q, tail, hs, hq⟩ := stringText_cons s.toList
  rw [arrayItems, hskip]
  rw [hs, List.cons_append] at hitem ⊢
  split
  · -- No quote closes an array.
    next heq =>
    rw [(List.cons.inj heq).1] at hq
    exact absurd hq (by decide)
  · rcases hd with rfl | rfl
    · have hcomma : skipLines (',' :: more).length (',' :: more) = ',' :: more :=
        skipLines_cons (by decide) (by decide) (by decide) rfl _
      simp only [hitem, Option.bind_eq_bind, Option.bind_some, hcomma]
      cases arrayItems read fuel more <;> rfl
    · have hbracket : skipLines (']' :: more).length (']' :: more) = ']' :: more :=
        skipLines_cons (by decide) (by decide) (by decide) rfl _
      simp only [hitem, Option.bind_eq_bind, Option.bind_some, hbracket]
      rfl

theorem takes_itemLines (items : List String) (rest : List Char) :
    Takes (arrayItems read) ('\n' :: (itemLines items ++ ']' :: rest)) (items.map .text) rest := by
  induction items with
  | nil =>
    exact forall_fuel fun _ _ ↦ rfl
  | cons s items ih =>
    refine forall_fuel fun fuel hfuel ↦ ?_
    have hlines : itemLines (s :: items) ++ ']' :: rest = [' ', ' ', ' ', ' '] ++
        (stringText s.toList ++ ',' :: '\n' :: (itemLines items ++ ']' :: rest)) := by
      rw [itemLines, List.flatMap_cons]
      simp only [List.append_assoc, List.cons_append, List.nil_append]
      rfl
    rw [hlines] at hfuel ⊢
    have hmore := ih fuel (by simp only [List.length_cons, List.length_append] at hfuel ⊢; omega)
    rw [arrayItems_text hread (skipLines_indented _ _ _) (.inl rfl), if_pos rfl, hmore]
    rfl

end

/-! ## Entries -/

/-- Whatever is written for a key reads back at the end of its line. -/
theorem value_chars (depth : Nat) {e : Entry} (he : e.Fits) (rest : List Char) :
    value (depth + 1) (e.chars ++ '\n' :: rest) = some (e.value, '\n' :: rest) := by
  have hread (s : String) (rest : List Char) (hdouble : rest.head? ≠ some '"')
      (hsingle : rest.head? ≠ some '\'') := value_stringText depth s hdouble hsingle
  cases e with
  | text s => exact value_stringText _ s (by simp) (by simp)
  | integer n => exact value_toString _ he rest
  | texts items =>
    match items with
    | [] => rfl
    | [s] =>
      -- A single item follows its bracket on the same line, with no comma behind it.
      have hskip : skipLines (stringText s.toList ++ ']' :: '\n' :: rest).length
          (stringText s.toList ++ ']' :: '\n' :: rest) =
            stringText s.toList ++ ']' :: '\n' :: rest := by
        rw [List.length_append, List.length_cons, ← Nat.add_assoc]
        exact skipLines_stringText (skipBlanks_stringText _ _) _
      have hchars : Entry.chars (.texts [s]) ++ '\n' :: rest =
          '[' :: (stringText s.toList ++ ']' :: '\n' :: rest) := by
        simp [Entry.chars]
      rw [hchars, value, arrayItems_text hread hskip (.inr rfl)]
      rfl
    | s :: t :: items =>
      have hmany := takes_itemLines hread (s :: t :: items) ('\n' :: rest)
      have hchars : Entry.chars (.texts (s :: t :: items)) ++ '\n' :: rest =
          '[' :: '\n' :: (itemLines (s :: t :: items) ++ ']' :: '\n' :: rest) := by
        simp [Entry.chars, itemLines]
      rw [hchars, value, hmany _ (Nat.lt_succ_self _)]
      rfl

theorem skipBlanks_chars (e : Entry) (cs : List Char) :
    skipBlanks (e.chars ++ cs) = e.chars ++ cs := by
  cases e with
  | text s => exact skipBlanks_stringText _ _
  | integer n =>
    obtain ⟨c, more, hn, hc⟩ := toString_cons n
    have hblank : isBlank c = false := by
      rw [isBlank, Bool.or_eq_false_iff, decide_eq_false_iff_not, decide_eq_false_iff_not]
      exact ⟨ne_of_number hc rfl (by decide), ne_of_number hc rfl (by decide)⟩
    rw [Entry.chars, hn]
    exact skipBlanks_cons hblank _
  | texts items =>
    match items with
    | [] => rfl
    | [s] => rfl
    | s :: t :: items => rfl

/-! ## Keys -/

/-- A name that needs no quotes as a key. -/
def IsBare (name : String) : Prop := name.toList ≠ [] ∧ ∀ c ∈ name.toList, isBareChar c = true

instance (name : String) : Decidable (IsBare name) :=
  decidable_of_iff (name.toList.isEmpty = false ∧ name.toList.all isBareChar = true) <| by
    rw [IsBare, List.isEmpty_eq_false_iff, List.all_eq_true]

theorem isBlank_of_isBareChar {c : Char} (hc : isBareChar c = true) : isBlank c = false := by
  rw [isBlank, Bool.or_eq_false_iff, decide_eq_false_iff_not, decide_eq_false_iff_not]
  exact ⟨ne_of_kind hc (by decide), ne_of_kind hc (by decide)⟩

section

variable {name : String} (hname : IsBare name)

include hname

theorem exists_bareChar : ∃ c cs, name.toList = c :: cs ∧ isBareChar c = true := by
  obtain ⟨hne, hall⟩ := hname
  obtain ⟨c, cs, hcs⟩ := List.exists_cons_of_ne_nil hne
  exact ⟨c, cs, hcs, hall c (hcs ▸ List.mem_cons_self)⟩

theorem keyPart_bare {d : Char} (hd : isBareChar d = false) (cs : List Char) :
    keyPart (name.toList ++ d :: cs) = some (name, d :: cs) := by
  have htake : (name.toList ++ d :: cs).takeWhile isBareChar = name.toList := by
    rw [List.takeWhile_append_of_pos hname.2, List.takeWhile_cons_of_neg (by simp [hd]),
      List.append_nil]
  have hdrop : (name.toList ++ d :: cs).dropWhile isBareChar = d :: cs := by
    rw [List.dropWhile_append_of_pos hname.2, List.dropWhile_cons_of_neg (by simp [hd])]
  obtain ⟨c, more, hmore, hc⟩ := exists_bareChar hname
  rw [keyPart.eq_def]
  split
  · next heq => exact absurd heq (by simp)
  · next c' more' heq =>
    obtain rfl : c = c' := by
      rw [hmore] at heq
      exact (List.cons.inj heq).1
    have hquote : ¬(c = '"' || c = '\'') = true := by
      simp [ne_of_kind hc (d := '"') (by decide), ne_of_kind hc (d := '\'') (by decide)]
    rw [if_neg hquote]
    simp only [htake, hdrop, if_neg hname.1, String.ofList_toList]

theorem key_bare {d e : Char} {cs rest : List Char} (hd : isBareChar d = false)
    (hrest : skipBlanks (d :: cs) = e :: rest) (hdot : e ≠ '.') :
    key (name.toList ++ d :: cs) = some ([name], e :: rest) := by
  obtain ⟨c, more, hmore, hc⟩ := exists_bareChar hname
  have hblank : skipBlanks (name.toList ++ d :: cs) = name.toList ++ d :: cs := by
    rw [hmore]
    exact skipBlanks_cons (isBlank_of_isBareChar hc) _
  rw [key, keyParts, hblank, keyPart_bare hname hd]
  simp only [Option.bind_eq_bind, Option.bind_some, hrest]
  split
  · next heq => exact absurd (List.cons.inj heq).1 hdot
  · rfl

end

/-! ## Tables under construction -/

namespace Fields

/-- The keys of an unfinished table, with what they stand for. -/
def ofList : List (String × Draft) → Fields
  | [] => none
  | (key, d) :: rest => field key d (ofList rest)

variable {key : String} {l : List (String × Draft)}

theorem find?_ofList_append (hkey : key ∉ l.map Prod.fst) (m : List (String × Draft)) :
    (ofList (l ++ m)).find? key = (ofList m).find? key := by
  induction l with
  | nil => rfl
  | cons x l ih =>
    rw [List.map_cons, List.mem_cons, not_or] at hkey
    rw [List.cons_append, ofList, find?, if_neg (Ne.symm hkey.1), ih hkey.2]

theorem set_ofList_append (hkey : key ∉ l.map Prod.fst) {d : Draft} {m : List (String × Draft)}
    (hm : (ofList m).set key d = ofList [(key, d)]) :
    (ofList (l ++ m)).set key d = ofList (l ++ [(key, d)]) := by
  induction l with
  | nil => exact hm
  | cons x l ih =>
    rw [List.map_cons, List.mem_cons, not_or] at hkey
    rw [List.cons_append, ofList, set, if_neg (Ne.symm hkey.1), ih hkey.2]
    rfl

theorem find?_ofList (hkey : key ∉ l.map Prod.fst) : (ofList l).find? key = .none := by
  have h := find?_ofList_append hkey []
  rwa [List.append_nil] at h

theorem set_ofList (hkey : key ∉ l.map Prod.fst) (d : Draft) :
    (ofList l).set key d = ofList (l ++ [(key, d)]) := by
  have h := set_ofList_append hkey (d := d) (m := []) rfl
  rwa [List.append_nil] at h

theorem finish_ofList (l : List (String × Draft)) :
    (ofList l).finish = l.map fun x ↦ (x.1, x.2.finish) := by
  induction l with
  | nil => rfl
  | cons x l ih => rw [ofList, finish, ih, List.map_cons]

end Fields

/-- A table with a header, as far as its entries were read. -/
def tableDraft (es : List (String × Entry)) : Draft :=
  .table .header (.ofList (es.map fun e ↦ (e.1, .value e.2.value)))

/-- The tables read so far. -/
def rootFields (ts : List (String × List (String × Entry))) : Fields :=
  .ofList (ts.map fun t ↦ (t.1, tableDraft t.2))

theorem finish_rootFields (ts : List (String × List (String × Entry))) :
    (rootFields ts).finish =
      ts.map fun t ↦ (t.1, .table (t.2.map fun e ↦ (e.1, e.2.value))) := by
  rw [rootFields, Fields.finish_ofList, List.map_map]
  refine List.map_congr_left fun t _ ↦ ?_
  show (t.1, (tableDraft t.2).finish) = _
  rw [tableDraft, Draft.finish, Fields.finish_ofList, List.map_map]
  rfl

section

variable {ts : List (String × List (String × Entry))} {name : String}
  (hname : name ∉ ts.map Prod.fst)

include hname

theorem openTable_rootFields :
    (rootFields ts).openTable [] name = some (rootFields (ts ++ [(name, [])])) := by
  have hkey : name ∉ (ts.map fun t ↦ (t.1, tableDraft t.2)).map Prod.fst := by
    rwa [List.map_map]
  rw [Fields.openTable, Fields.update, rootFields, Fields.find?_ofList hkey]
  dsimp only
  rw [Fields.set_ofList hkey, rootFields, List.map_append]
  rfl

theorem update_rootFields {es : List (String × Entry)} {key : String}
    (hkey : key ∉ es.map Prod.fst) (e : Entry) :
    (rootFields (ts ++ [(name, es)])).update false
        (fun origin fields ↦ fields.assign [] key e.value origin) [name] .header =
      some (rootFields (ts ++ [(name, es ++ [(key, e)])])) := by
  have hname' : name ∉ (ts.map fun t ↦ (t.1, tableDraft t.2)).map Prod.fst := by
    rwa [List.map_map]
  have hkey' : key ∉ (es.map fun e ↦ (e.1, Draft.value e.2.value)).map Prod.fst := by
    rwa [List.map_map]
  have hassign : Fields.assign [] key e.value .header
      (.ofList (es.map fun e ↦ (e.1, .value e.2.value))) =
        some (.ofList ((es ++ [(key, e)]).map fun e ↦ (e.1, .value e.2.value))) := by
    rw [Fields.assign, Fields.update, if_neg (by decide), Fields.find?_ofList hkey',
      Fields.set_ofList hkey', List.map_append]
    rfl
  have hfind : (Fields.ofList [(name, tableDraft es)]).find? name = some (tableDraft es) :=
    if_pos rfl
  have hset : (Fields.ofList [(name, tableDraft es)]).set name (tableDraft (es ++ [(key, e)])) =
      .ofList [(name, tableDraft (es ++ [(key, e)]))] := if_pos rfl
  rw [rootFields, List.map_append, List.map_singleton, Fields.update,
    Fields.find?_ofList_append hname', hfind, rootFields, List.map_append, List.map_singleton,
    ← Fields.set_ofList_append hname' hset]
  -- Only the table that was found is taken apart, not the one that takes its place.
  conv_lhs => rw [tableDraft]
  dsimp only
  rw [Fields.update, hassign]
  rfl

end

/-! ## Lines -/

/-- The root table that the lines of a text come to from some progress. -/
def ComesTo (p : Progress) (cs : List Char) (root : Fields) : Prop :=
  ∀ fuel, cs.length < fuel → (lines fuel p cs).map (·.root) = some root

theorem comesTo_nil (p : Progress) : ComesTo p [] p.root :=
  forall_fuel fun _ _ ↦ rfl

section

variable {p q : Progress} {rest : List Char} {root : Fields} (h : ComesTo q rest root)

include h

theorem comesTo_headerLine {cs : List Char} (hlength : rest.length ≤ cs.length)
    (hline : headerLine p cs = some (q, rest)) : ComesTo p ('[' :: cs) root := by
  refine forall_fuel fun fuel hfuel ↦ ?_
  have hrest := h fuel (Nat.lt_of_le_of_lt hlength (Nat.lt_of_succ_lt_succ hfuel))
  have hopen : skipBlanks ('[' :: cs) = '[' :: cs := rfl
  rw [lines, hopen]
  simp only [hline, Option.bind_eq_bind, Option.bind_some]
  exact hrest

theorem comesTo_keyLine {c : Char} {cs : List Char} (hc : isBareChar c = true)
    (hlength : rest.length ≤ cs.length) (hline : keyLine p (c :: cs) = some (q, rest)) :
    ComesTo p (c :: cs) root := by
  refine forall_fuel fun fuel hfuel ↦ ?_
  have hrest := h fuel (Nat.lt_of_le_of_lt hlength (Nat.lt_of_succ_lt_succ hfuel))
  rw [lines, skipBlanks_cons (isBlank_of_isBareChar hc)]
  split
  · next heq => cases heq
  · next heq => exact absurd (List.cons.inj heq).1 (ne_of_kind hc (by decide))
  · next heq =>
    obtain ⟨rfl, rfl⟩ := List.cons.inj heq
    rw [if_neg]
    · simp only [hline, Option.bind_eq_bind, Option.bind_some]
      exact hrest
    · simp [ne_of_kind hc (d := '#') (by decide), ne_of_kind hc (d := '\n') (by decide),
        ne_of_kind hc (d := '\r') (by decide)]

theorem comesTo_blankLine : ComesTo q ('\n' :: rest) root :=
  forall_fuel fun fuel hfuel ↦ h fuel (Nat.lt_of_succ_lt_succ hfuel)

end

/-! ## The lines of a document -/

theorem notMem_of_nodup {α : Type} {l more : List (String × α)} {x : String × α}
    (h : ((l ++ x :: more).map Prod.fst).Nodup) : x.1 ∉ l.map Prod.fst := by
  rw [List.map_append, List.map_cons, List.nodup_append] at h
  exact fun hmem ↦ h.2.2 _ hmem _ List.mem_cons_self rfl

/-- Entries that a table can be written with. -/
structure Writable (es : List (String × Entry)) : Prop where
  bare : ∀ e ∈ es, IsBare e.1
  nodup : (es.map Prod.fst).Nodup
  fits : ∀ e ∈ es, e.2.Fits

theorem keyValue_entry {e : String × Entry} (hbare : IsBare e.1) (hfits : e.2.Fits)
    (rest : List Char) :
    keyValue (value (depthLimit - 1))
        (e.1.toList ++ ' ' :: '=' :: ' ' :: (e.2.chars ++ '\n' :: rest)) =
      some (([], e.1, e.2.value), '\n' :: rest) := by
  have hparts : key (e.1.toList ++ ' ' :: '=' :: ' ' :: (e.2.chars ++ '\n' :: rest)) =
      some ([e.1], '=' :: ' ' :: (e.2.chars ++ '\n' :: rest)) :=
    key_bare hbare (by decide) rfl (by decide)
  have hblanks : skipBlanks (' ' :: (e.2.chars ++ '\n' :: rest)) = e.2.chars ++ '\n' :: rest :=
    skipBlanks_chars e.2 _
  have hvalue : value (depthLimit - 1) (e.2.chars ++ '\n' :: rest) = some (e.2.value, _) :=
    value_chars (depthLimit - 2) hfits rest
  rw [keyValue, hparts]
  simp only [Option.bind_eq_bind, Option.bind_some, hblanks, hvalue, List.getLast?_singleton]
  rfl

/-- The lines of a table's entries. -/
def entryLines (es : List (String × Entry)) : List Char :=
  es.flatMap fun e ↦ e.1.toList ++ [' ', '=', ' '] ++ e.2.chars ++ ['\n']

theorem entryLines_cons (e : String × Entry) (es : List (String × Entry)) (rest : List Char) :
    entryLines (e :: es) ++ rest =
      e.1.toList ++ ' ' :: '=' :: ' ' :: (e.2.chars ++ '\n' :: (entryLines es ++ rest)) := by
  simp only [entryLines, List.flatMap_cons, List.append_assoc, List.cons_append, List.nil_append]

theorem tableText_append (name : String) (es : List (String × Entry)) (rest : List Char) :
    tableText name es ++ rest =
      '[' :: (name.toList ++ ']' :: '\n' :: (entryLines es ++ rest)) := by
  simp only [tableText, entryLines, List.append_assoc, List.cons_append, List.nil_append]

section

variable {ts : List (String × List (String × Entry))} {name : String}
  (hname : name ∉ ts.map Prod.fst)

include hname

theorem headerLine_rootFields (hbare : IsBare name) (current : List String) (rest : List Char) :
    headerLine ⟨current, rootFields ts⟩ (name.toList ++ ']' :: '\n' :: rest) =
      some (⟨[name], rootFields (ts ++ [(name, [])])⟩, rest) := by
  have hkey : key (name.toList ++ ']' :: '\n' :: rest) = some ([name], ']' :: '\n' :: rest) :=
    key_bare hbare (by decide) rfl (by decide)
  have hopen : (rootFields ts).openTable [name].dropLast name = _ := openTable_rootFields hname
  obtain ⟨c, cs, hcs, hc⟩ := exists_bareChar hbare
  rw [headerLine.eq_def]
  split
  · next heq =>
    rw [hcs] at heq
    exact absurd (List.cons.inj heq).1 (ne_of_kind hc (by decide))
  · simp only [hkey, Option.bind_eq_bind, Option.bind_some, List.getLast?_singleton, hopen]
    rfl

theorem keyLine_rootFields {es : List (String × Entry)} {e : String × Entry} (hbare : IsBare e.1)
    (hkey : e.1 ∉ es.map Prod.fst) (hfits : e.2.Fits) (rest : List Char) :
    keyLine ⟨[name], rootFields (ts ++ [(name, es)])⟩
        (e.1.toList ++ ' ' :: '=' :: ' ' :: (e.2.chars ++ '\n' :: rest)) =
      some (⟨[name], rootFields (ts ++ [(name, es ++ [e])])⟩, rest) := by
  rw [keyLine, keyValue_entry hbare hfits]
  simp only [Option.bind_eq_bind, Option.bind_some, update_rootFields hname hkey e.2]
  rfl

/-- The entries of a table fill it one by one. The induction is on those that remain, and those
that were read grow with it. -/
theorem comesTo_entries {rest : List Char} {root : Fields} (more : List (String × Entry)) :
    ∀ es, Writable (es ++ more) →
      ComesTo ⟨[name], rootFields (ts ++ [(name, es ++ more)])⟩ rest root →
      ComesTo ⟨[name], rootFields (ts ++ [(name, es)])⟩ (entryLines more ++ rest) root := by
  induction more with
  | nil =>
    intro es _ h
    rwa [List.append_nil] at h
  | cons e more ih =>
    intro es hes h
    have hmem : e ∈ es ++ e :: more := List.mem_append_right _ List.mem_cons_self
    rw [List.append_cons es] at h
    have hmore := ih (es ++ [e]) (List.append_cons es e more ▸ hes) h
    have hline := keyLine_rootFields hname (hes.bare e hmem) (notMem_of_nodup hes.nodup)
      (hes.fits e hmem) (entryLines more ++ rest)
    obtain ⟨c, cs, hcs, hc⟩ := exists_bareChar (hes.bare e hmem)
    rw [entryLines_cons]
    rw [hcs, List.cons_append] at hline ⊢
    refine comesTo_keyLine hmore hc ?_ hline
    simp only [List.length_append, List.length_cons]
    omega

theorem comesTo_table (hbare : IsBare name) {es : List (String × Entry)} (hes : Writable es)
    {rest : List Char} {root : Fields} (current : List String)
    (h : ComesTo ⟨[name], rootFields (ts ++ [(name, es)])⟩ rest root) :
    ComesTo ⟨current, rootFields ts⟩ (tableText name es ++ rest) root := by
  rw [tableText_append]
  refine comesTo_headerLine (comesTo_entries hname es [] hes h) ?_
    (headerLine_rootFields hname hbare current _)
  simp only [List.length_append, List.length_cons]
  omega

end

/-- Tables that a document can be written with. -/
structure Writables (ts : List (String × List (String × Entry))) : Prop where
  bare : ∀ t ∈ ts, IsBare t.1
  nodup : (ts.map Prod.fst).Nodup
  writable : ∀ t ∈ ts, Writable t.2

/-- Tables come after those that were read. The induction is on the tables that remain, since a
blank line stands only between two. -/
theorem comesTo_tables (more : List (String × List (String × Entry))) :
    ∀ ts current, Writables (ts ++ more) →
      ComesTo ⟨current, rootFields ts⟩
        (['\n'].intercalate (more.map fun t ↦ tableText t.1 t.2)) (rootFields (ts ++ more)) := by
  induction more with
  | nil =>
    intro ts current _
    rw [List.append_nil]
    exact comesTo_nil _
  | cons t more ih =>
    intro ts current hts
    have hmem : t ∈ ts ++ t :: more := List.mem_append_right _ List.mem_cons_self
    have htable {rest : List Char} {root : Fields}
        (h : ComesTo ⟨[t.1], rootFields (ts ++ [t])⟩ rest root) :=
      comesTo_table (notMem_of_nodup hts.nodup) (hts.bare t hmem) (hts.writable t hmem) current h
    rw [List.append_cons] at hts ⊢
    have hmore := ih (ts ++ [t]) [t.1] hts
    cases more with
    | nil =>
      have h := htable hmore
      rw [List.map_nil, List.intercalate_nil, List.append_nil] at h
      rwa [List.map_singleton, List.intercalate_singleton]
    | cons u more =>
      rw [List.map_cons, List.map_cons, List.intercalate_cons_cons, List.append_assoc]
      exact htable (comesTo_blankLine hmore)

theorem head?_documentText (ts : List (String × List (String × Entry))) :
    (documentText ts).toList.head? ≠ some '\uFEFF' := by
  rw [documentText, String.toList_ofList]
  rcases ts with _ | ⟨t, _ | ⟨u, ts⟩⟩
  · simp
  · simp [tableText]
  · simp [tableText]

/-- A document reads back as the tables that were written. -/
theorem read_documentText {ts : List (String × List (String × Entry))} (hts : Writables ts) :
    read (documentText ts) =
      some (ts.map fun t ↦ (t.1, .table (t.2.map fun e ↦ (e.1, e.2.value)))) := by
  have hcomes := comesTo_tables ts [] [] hts _ (Nat.lt_succ_self _)
  have hmark := head?_documentText ts
  have htext : (documentText ts).toList = _ := String.toList_ofList
  rw [read]
  split
  · next heq => exact absurd (heq ▸ rfl) hmark
  · rw [htext]
    rw [List.nil_append] at hcomes
    have h := congrArg (Option.map Fields.finish) hcomes
    rwa [Option.map_map, Option.map_some, finish_rootFields] at h

end NativeTransfer.Toml
