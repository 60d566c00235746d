import RithmicNt.Exec.Ident

/-! Instrument ids as an encoding: what `instrumentId` builds and what `splitInstrumentId` takes apart are
the same texts, so an id stands for one symbol on one exchange. -/

namespace RithmicNt.Exec

/-- The text of an id, from its parts. -/
def written (venue symbol : String) : Option String → String
  | some exch => symbol ++ "-" ++ exch ++ "." ++ venue
  | none => symbol ++ "." ++ venue

theorem isSafe_iff {value : String} :
    isSafe value = true ↔ '-' ∉ value.toList ∧ '.' ∉ value.toList := by
  simp only [isSafe, List.all_eq_true, Bool.and_eq_true, bne_iff_ne]
  constructor
  · exact fun h => ⟨fun hm => (h _ hm).1 rfl, fun hm => (h _ hm).2 rfl⟩
  · rintro ⟨hhyphen, hdot⟩ c hc
    exact ⟨fun h => hhyphen (h ▸ hc), fun h => hdot (h ▸ hc)⟩

theorem requireSafe_map_eq_ok {α : Type} {value label : String} {f : String → α} {result : α} :
    (requireSafe value label).map f = .ok result ↔ isSafe value = true ∧ f value = result := by
  unfold requireSafe
  by_cases h : isSafe value = true
  · rw [if_pos h]
    exact ⟨fun hok => ⟨h, Except.ok.inj hok⟩, fun hok => congrArg Except.ok hok.2⟩
  · rw [if_neg h]
    exact ⟨nofun, fun hok => absurd hok.1 h⟩

variable {upper : Char → List Char} {venue : String}

/-- The inputs that have an id, and the id. -/
theorem instrumentId_eq_ok {symbol id : String} {exchange : Option String} :
    instrumentId upper symbol exchange venue = .ok id ↔
      isSafe (trim symbol) = true ∧ trim symbol ≠ "" ∧
      (∀ e ∈ exchangeOf exchange, isSafe (toUppercase upper e) = true) ∧
      id = written venue (trim symbol) ((exchangeOf exchange).map (toUppercase upper)) := by
  unfold instrumentId requireSafe
  by_cases hsafe : isSafe (trim symbol) = true
  · simp only [hsafe, if_true, bind, Except.bind, true_and]
    by_cases hempty : trim symbol = ""
    · rw [if_pos hempty]
      exact ⟨nofun, fun h => absurd hempty h.1⟩
    · rw [if_neg hempty]
      cases exchangeOf exchange with
      | none => exact ⟨fun h => ⟨hempty, nofun, (Except.ok.inj h).symm⟩, fun h => by rw [h.2.2]; rfl⟩
      | some e =>
        by_cases hexch : isSafe (toUppercase upper e) = true
        · simp only [hexch, if_true]
          refine ⟨fun h => ⟨hempty, ?_, (Except.ok.inj h).symm⟩, fun h => by rw [h.2.2]; rfl⟩
          rintro x ⟨⟩
          exact hexch
        · simp only [if_neg hexch]
          exact ⟨nofun, fun h => absurd (h.2.1 e rfl) hexch⟩
  · simp only [if_neg hsafe, bind, Except.bind]
    exact ⟨nofun, fun h => absurd h.1 hsafe⟩

theorem stripSuffix?_eq_some {text suffix rest : String} :
    stripSuffix? text suffix = some rest ↔ text = rest ++ suffix := by
  unfold stripSuffix?
  constructor
  · intro h
    split at h
    · next hsuffix =>
      obtain ⟨front, hfront⟩ := List.isSuffixOf_iff_suffix.mp hsuffix
      have hlength : text.length - suffix.length = front.length := by
        rw [← String.length_toList, ← String.length_toList, ← hfront, List.length_append]
        omega
      obtain rfl := Option.some.inj h
      apply String.toList_inj.mp
      rw [hlength, ← hfront, List.take_left, String.toList_append, String.toList_ofList, hfront]
    · cases h
  · rintro rfl
    have hlength : (rest ++ suffix).length - suffix.length = rest.toList.length := by
      rw [String.length_append, String.length_toList]
      omega
    rw [if_pos (by simp [List.isSuffixOf_iff_suffix]), hlength, String.toList_append, List.take_left,
      String.ofList_toList]

/-- The first hyphen of a text cuts it in two. -/
theorem hyphen_cut {text sym : List Char} {exch : List Char} (hsym : '-' ∉ sym)
    (htext : text = sym ++ '-' :: exch) :
    text.takeWhile (· != '-') = sym ∧ text.dropWhile (· != '-') = '-' :: exch := by
  have hall : ∀ c ∈ sym, (c != '-') = true := by
    intro c hc
    exact bne_iff_ne.mpr fun h => hsym (h ▸ hc)
  rw [htext]
  refine ⟨takeWhile_append_cons (List.all_eq_true.mpr hall) rfl, ?_⟩
  rw [dropWhile_append_of_all hall]
  rfl

/-- What an id has before its venue. -/
def writtenFront (symbol : String) : Option String → String
  | some exch => symbol ++ "-" ++ exch
  | none => symbol

theorem written_eq (symbol : String) (e : Option String) :
    written venue symbol e = writtenFront symbol e ++ ("." ++ venue) := by
  cases e with
  | none => exact String.append_assoc ..
  | some exch => exact String.append_assoc ..

/-- The parts that a text before the venue is written from. -/
def PartsOf (upper : Char → List Char) (front symbol : String) (exchange : Option String) : Prop :=
  ∃ e : Option String, front = writtenFront symbol e ∧ symbol ≠ "" ∧ isSafe symbol = true ∧
    (∀ x ∈ e, x ≠ "" ∧ isSafe (toUppercase upper x) = true) ∧ exchange = e.map (toUppercase upper)

section

variable {front symbol : String} {exchange : Option String}

theorem PartsOf.ne_empty (h : PartsOf upper front symbol exchange) : front ≠ "" := by
  obtain ⟨e, rfl, hsymbol, -⟩ := h
  cases e with
  | none => exact hsymbol
  | some exch =>
    intro hempty
    have hlist := congrArg String.toList hempty
    simp [writtenFront] at hlist

/-- A text without a hyphen is a symbol. -/
theorem partsOf_whole (hempty : front ≠ "") (hhyphen : '-' ∉ front.toList) :
    PartsOf upper front symbol exchange ↔
      isSafe front = true ∧ (front, (none : Option String)) = (symbol, exchange) := by
  constructor
  · rintro ⟨e, hfront, -, hsafe, -, rfl⟩
    cases e with
    | none =>
      obtain rfl : front = symbol := hfront
      exact ⟨hsafe, rfl⟩
    | some exch => exact absurd (by simp [hfront, writtenFront]) hhyphen
  · rintro ⟨hsafe, hpair⟩
    cases hpair
    exact ⟨none, rfl, hempty, hsafe, nofun, rfl⟩

/-- A text with a hyphen is cut at the first one. -/
theorem partsOf_cut {sym exch : List Char} (hsym : '-' ∉ sym)
    (hfront : front.toList = sym ++ '-' :: exch) :
    PartsOf upper front symbol exchange ↔
      (¬(String.ofList sym = "" ∨ exch = []) ∧ '.' ∉ sym) ∧
      isSafe (toUppercase upper (String.ofList exch)) = true ∧
      (String.ofList sym, some (toUppercase upper (String.ofList exch))) = (symbol, exchange) := by
  constructor
  · rintro ⟨e, hwritten, hsymbol, hsafe, hexch, rfl⟩
    obtain ⟨hhyphen, hdot⟩ := isSafe_iff.mp hsafe
    cases e with
    | none =>
      obtain rfl : front = symbol := hwritten
      exact absurd (by simp [hfront]) hhyphen
    | some x =>
      obtain ⟨hx, hxsafe⟩ := hexch x rfl
      have hfront' : front.toList = symbol.toList ++ '-' :: x.toList := by simp [hwritten, writtenFront]
      obtain ⟨htake, hdrop⟩ := hyphen_cut hsym hfront
      obtain ⟨htake', hdrop'⟩ := hyphen_cut hhyphen hfront'
      obtain rfl : symbol.toList = sym := htake'.symm.trans htake
      obtain rfl : x.toList = exch := (List.cons.inj (hdrop'.symm.trans hdrop)).2
      have hxlist : x.toList ≠ [] := fun h => hx (String.toList_inj.mp h)
      rw [String.ofList_toList, String.ofList_toList]
      exact ⟨⟨not_or.mpr ⟨hsymbol, hxlist⟩, hdot⟩, hxsafe, rfl⟩
  · rintro ⟨⟨hparts, hdot⟩, hsafe, hpair⟩
    obtain ⟨hne, hexch⟩ := not_or.mp hparts
    cases hpair
    refine ⟨some (String.ofList exch), ?_, hne, ?_, ?_, rfl⟩
    · apply String.toList_inj.mp
      simpa [writtenFront] using hfront
    · rw [isSafe_iff, String.toList_ofList]
      exact ⟨hsym, hdot⟩
    · rintro x ⟨⟩
      refine ⟨fun h => hexch ?_, hsafe⟩
      simpa using congrArg String.toList h

end

/-- The texts that are taken apart, and their parts. -/
theorem splitInstrumentId_eq_ok {text symbol : String} {exchange : Option String} :
    splitInstrumentId upper text venue = .ok (symbol, exchange) ↔
      ∃ e : Option String, trim text = written venue symbol e ∧ symbol ≠ "" ∧
        isSafe symbol = true ∧ (∀ x ∈ e, x ≠ "" ∧ isSafe (toUppercase upper x) = true) ∧
        exchange = e.map (toUppercase upper) := by
  unfold splitInstrumentId
  simp only
  cases hstrip : stripSuffix? (trim text) ("." ++ venue) with
  | none =>
    refine ⟨nofun, ?_⟩
    rintro ⟨e, htext, -⟩
    rw [stripSuffix?_eq_some.mpr (htext.trans (written_eq symbol e))] at hstrip
    cases hstrip
  | some front =>
    have hparts : (∃ e : Option String, trim text = written venue symbol e ∧ symbol ≠ "" ∧
        isSafe symbol = true ∧ (∀ x ∈ e, x ≠ "" ∧ isSafe (toUppercase upper x) = true) ∧
        exchange = e.map (toUppercase upper)) ↔ PartsOf upper front symbol exchange := by
      simp only [stripSuffix?_eq_some.mp hstrip, written_eq, String.append_left_inj, PartsOf]
    rw [hparts]
    simp only
    by_cases hempty : front = ""
    · rw [if_pos hempty]
      exact ⟨nofun, fun h => absurd hempty h.ne_empty⟩
    · rw [if_neg hempty]
      have hjoin := List.takeWhile_append_dropWhile (p := (· != '-')) (l := front.toList)
      have hbefore : '-' ∉ front.toList.takeWhile (· != '-') := by
        intro h
        have := List.mem_takeWhile_imp h
        simp at this
      cases hcut : front.toList.dropWhile (· != '-') with
      | nil =>
        rw [hcut, List.append_nil] at hjoin
        rw [hjoin] at hbefore
        rw [partsOf_whole hempty hbefore]
        exact requireSafe_map_eq_ok
      | cons c exch =>
        obtain rfl : c = '-' := by
          have := head?_dropWhile front.toList c (by rw [hcut]; rfl)
          simpa using this
        rw [hcut] at hjoin
        rw [partsOf_cut hbefore hjoin.symm]
        simp only [String.toList_ofList, List.contains_iff_mem]
        split
        · next hempty => exact ⟨nofun, fun h => absurd hempty h.1.1⟩
        · next hne =>
          split
          · next hdot => exact ⟨nofun, fun h => absurd hdot h.1.2⟩
          · next hdot =>
            refine requireSafe_map_eq_ok.trans ⟨fun h => ⟨⟨hne, hdot⟩, h⟩, fun h => h.2⟩

/-! ### The venue of the adapter -/

def venueName : String := "RITHMIC"

/-- An id begins with a character of its symbol and ends with the venue, so no blanks surround it. -/
theorem trim_written {symbol : String} (hsymbol : symbol ≠ "")
    (hfirst : ∀ c ∈ symbol.toList.head?, isWhite c = false) (exchange : Option String) :
    trim (written venueName symbol exchange) = written venueName symbol exchange := by
  obtain ⟨rest, hrest⟩ : ∃ rest, (written venueName symbol exchange).toList =
      symbol.toList ++ (rest ++ venueName.toList) := by
    cases exchange with
    | none => exact ⟨['.'], by simp [written]⟩
    | some exch => exact ⟨'-' :: (exch.toList ++ ['.']), by simp [written]⟩
  have hlast : venueName.toList.getLast? = some 'C' := rfl
  apply trim_eq_self
  · intro c hc
    cases hlist : symbol.toList with
    | nil => exact absurd (String.toList_inj.mp hlist) hsymbol
    | cons a tail =>
      rw [hrest, hlist] at hc
      exact hfirst c (by rw [hlist]; exact hc)
  · rw [hrest, ← List.append_assoc, List.getLast?_append, hlast]
    rintro c ⟨⟩
    decide

theorem exchangeOf_mem {exchange : Option String} {e : String} (h : e ∈ exchangeOf exchange) :
    trim e = e ∧ e ≠ "" := by
  unfold exchangeOf at h
  obtain ⟨hmap, hne⟩ := Option.filter_eq_some_iff.mp h
  obtain ⟨raw, -, rfl⟩ := Option.map_eq_some_iff.mp hmap
  exact ⟨trim_trim raw, by simpa using hne⟩

theorem toUppercase_ne_empty (hupper : Casing upper) {s : String} (h : s ≠ "") :
    toUppercase upper s ≠ "" := by
  intro hempty
  have hlist := congrArg String.toList hempty
  simp only [toUppercase, String.toList_ofList] at hlist
  cases hs : s.toList with
  | nil => exact h (String.toList_inj.mp hs)
  | cons c rest =>
    rw [hs, List.flatMap_cons] at hlist
    exact hupper.filled c (List.append_eq_nil_iff.mp hlist).1

theorem map_toUppercase_idem (hupper : Casing upper) (o : Option String) :
    (o.map (toUppercase upper)).map (toUppercase upper) = o.map (toUppercase upper) := by
  cases o with
  | none => rfl
  | some s => rw [Option.map_some, Option.map_some, hupper.idem]

/-- An id gives back the symbol and the exchange it was built from. -/
theorem splitInstrumentId_instrumentId (hupper : Casing upper) {symbol id : String}
    {exchange : Option String} (h : instrumentId upper symbol exchange venueName = .ok id) :
    splitInstrumentId upper id venueName =
      .ok (trim symbol, (exchangeOf exchange).map (toUppercase upper)) := by
  obtain ⟨hsafe, hne, hexch, rfl⟩ := instrumentId_eq_ok.mp h
  refine splitInstrumentId_eq_ok.mpr ⟨_, trim_written hne (head?_trim symbol) _, hne, hsafe, ?_, ?_⟩
  · intro x hx
    obtain ⟨e, he, rfl⟩ := Option.map_eq_some_iff.mp hx
    refine ⟨toUppercase_ne_empty hupper (exchangeOf_mem he).2, ?_⟩
    rw [hupper.idem]
    exact hexch e he
  · exact (map_toUppercase_idem hupper _).symm

/-- The parts of an id, where nothing is to be trimmed, give back the id with its exchange in upper
case. -/
theorem instrumentId_splitInstrumentId (hupper : Casing upper) {text symbol : String}
    {exchange : Option String}
    (h : splitInstrumentId upper text venueName = .ok (symbol, exchange)) :
    ∃ e, trim text = written venueName symbol e ∧ exchange = e.map (toUppercase upper) ∧
      (trim symbol = symbol → (∀ x ∈ e, trim x = x) →
        instrumentId upper symbol exchange venueName = .ok (written venueName symbol exchange)) := by
  obtain ⟨e, htext, hne, hsafe, hexch, rfl⟩ := splitInstrumentId_eq_ok.mp h
  refine ⟨e, htext, rfl, fun hsymbol htrimmed => instrumentId_eq_ok.mpr ?_⟩
  have hkeeps : exchangeOf (e.map (toUppercase upper)) = e.map (toUppercase upper) := by
    cases e with
    | none => rfl
    | some x =>
      have hx := hupper.trimmed x (htrimmed x rfl)
      have hxne := toUppercase_ne_empty hupper (hexch x rfl).1
      simp [exchangeOf, hx, hxne]
  rw [hkeeps, hsymbol, map_toUppercase_idem hupper]
  refine ⟨hsafe, hne, ?_, rfl⟩
  intro x hx
  obtain ⟨y, hy, rfl⟩ := Option.map_eq_some_iff.mp hx
  rw [hupper.idem]
  exact (hexch y hy).2

/-- Instrument ids are an injective encoding of a trimmed symbol and a trimmed exchange in upper case. -/
theorem instrumentId_injective (hupper : Casing upper) :
    (∀ symbol exchange id, instrumentId upper symbol exchange venueName = .ok id →
      splitInstrumentId upper id venueName =
        .ok (trim symbol, (exchangeOf exchange).map (toUppercase upper))) ∧
    (∀ symbol exchange symbol' exchange' id id',
      instrumentId upper symbol exchange venueName = .ok id →
      instrumentId upper symbol' exchange' venueName = .ok id' →
      (id = id' ↔ trim symbol = trim symbol' ∧
        (exchangeOf exchange).map (toUppercase upper) =
          (exchangeOf exchange').map (toUppercase upper))) ∧
    (∀ text symbol exchange,
      splitInstrumentId upper text venueName = .ok (symbol, exchange) →
      ∃ e, trim text = written venueName symbol e ∧ exchange = e.map (toUppercase upper) ∧
        (trim symbol = symbol → (∀ x ∈ e, trim x = x) →
          instrumentId upper symbol exchange venueName =
            .ok (written venueName symbol exchange))) := by
  refine ⟨fun symbol exchange id h => splitInstrumentId_instrumentId hupper h, ?_,
    fun text symbol exchange h => instrumentId_splitInstrumentId hupper h⟩
  intro symbol exchange symbol' exchange' id id' h h'
  constructor
  · rintro rfl
    have hsame := (splitInstrumentId_instrumentId hupper h).symm.trans
      (splitInstrumentId_instrumentId hupper h')
    exact Prod.mk.inj (Except.ok.inj hsame)
  · rintro ⟨hsymbol, hexchange⟩
    rw [(instrumentId_eq_ok.mp h).2.2.2, (instrumentId_eq_ok.mp h').2.2.2, hsymbol, hexchange]

theorem instrumentId_injective_ascii :
    splitInstrumentId asciiUpper "NQU6-CME.RITHMIC" venueName = .ok ("NQU6", some "CME") :=
  (instrumentId_injective casing_asciiUpper).1 " NQU6 " (some "cme") _ (by decide)

end RithmicNt.Exec
