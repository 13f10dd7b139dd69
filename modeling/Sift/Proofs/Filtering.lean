import Sift.Filter
import Sift.Proofs.AnyBytes
import Sift.Proofs.Walk.Shape

/-!
# Filtering judges each document on its own

One matcher serves all documents of a text. As it is reset before each, what it says of a document
is what a new matcher says (`Matcher.keepAll_append`), whatever the documents before have left
behind: marks, captured values, the stall of a loop that has been broken off.

`FilterRequest.answer_judges_alone`: so an answer is told by what is said of each document alone, and
where there is none, by the first document that cannot be judged.
-/

namespace Sift

/-! ## 1. Documents of a text -/

theorem Text.lines_eq : ∀ s : List Char, lines s = s.splitOn '\n'
  | [] => rfl
  | c :: rest => by
    rw [List.splitOn_cons_eq_if_modifyHead]
    split
    · next hc => rw [beq_iff_eq.mp hc, lines, lines_eq rest]
    · next hc =>
      have hchar : c ≠ '\n' := fun h => hc (beq_iff_eq.mpr h)
      obtain ⟨line, more, hrest⟩ :=
        List.exists_cons_of_ne_nil (List.splitOn_ne_nil '\n' rest)
      rw [lines, lines_eq rest, hrest]
      · rfl
      · exact hchar

namespace Document

theorem ofLines_eq : ∀ (line : Nat) (texts : List (List Char)),
    ofLines line texts = (texts.zipIdx line).filterMap fun (text, line) =>
      if Text.trim text = [] then none else some ⟨line, String.ofList (Text.trim text)⟩
  | _, [] => rfl
  | line, text :: rest => by
    rw [ofLines, List.zipIdx_cons, List.filterMap_cons, ofLines_eq (line + 1) rest]
    dsimp only
    cases Text.trim text with
    | nil => rw [if_pos rfl]
    | cons c cs => rw [if_neg (List.cons_ne_nil c cs)]

/-- **The documents of a text** are its lines but for the blanks around them, each with its number,
    and without those that are blank. -/
theorem ofText_eq (input : String) :
    ofText input = ((input.toList.splitOn '\n').zipIdx 1).filterMap fun (text, line) =>
      if Text.trim text = [] then none else some ⟨line, String.ofList (Text.trim text)⟩ := by
  rw [ofText, Text.lines_eq, ofLines_eq]

end Document

/-! ## 2. One matcher for all documents -/

namespace Matcher

variable {D : Decimals} {p : Plan} {m : Matcher} {rule : FilterRule} {d : Document}

/-- A document that can be judged is judged as by a new matcher. -/
theorem keeps_of_ok {matched : Bool} (h : m.reset = fresh p)
    (hlen : d.bytes.length ≤ rule.limit) (ht : p.test D d.bytes = .ok matched) :
    ∃ m', m.keeps D rule d = .ok (matched != rule.invert, m') ∧ m'.reset = fresh p := by
  have hrun : (fresh p).run D d.bytes = (.ok matched, ((fresh p).run D d.bytes).2) :=
    Prod.ext ht rfl
  refine ⟨((fresh p).run D d.bytes).2, ?_, reset_run p d.bytes⟩
  rw [keeps, if_neg (Nat.not_lt.mpr hlen), h, hrun]

theorem keeps_of_large (hlen : rule.limit < d.bytes.length) :
    m.keeps D rule d = .error (.tooLarge d.line d.bytes.length rule.limit) := if_pos hlen

theorem keeps_of_error {e : MatchError} (h : m.reset = fresh p)
    (hlen : d.bytes.length ≤ rule.limit) (ht : p.test D d.bytes = .error e) :
    m.keeps D rule d = .error (.document d.line e) := by
  have hrun : (fresh p).run D d.bytes = (.error e, ((fresh p).run D d.bytes).2) := Prod.ext ht rfl
  rw [keeps, if_neg (Nat.not_lt.mpr hlen), h, hrun]

/-- **Documents that can be judged** leave a matcher that says the same of the next as a new one. -/
theorem keepAll_append {matched : Document → Bool} (rest : List Document) :
    ∀ {before : List Document} {m : Matcher} (kept : List String) (scanned : Nat),
      m.reset = fresh p →
      (∀ d ∈ before, d.bytes.length ≤ rule.limit ∧ p.test D d.bytes = .ok (matched d)) →
      ∃ m' : Matcher, m'.reset = fresh p ∧ m.keepAll D rule kept scanned (before ++ rest) =
        m'.keepAll D rule
          (((before.filter fun d => matched d != rule.invert).map Document.text).reverse ++ kept)
          (scanned + before.length) rest
  | [], m, _, _, h, _ => ⟨m, h, rfl⟩
  | d :: before, _, kept, scanned, h, hall => by
    obtain ⟨hlen, ht⟩ := hall d List.mem_cons_self
    obtain ⟨m₁, hkeeps, h₁⟩ := keeps_of_ok h hlen ht
    have hrest : ∀ d ∈ before, d.bytes.length ≤ rule.limit ∧ p.test D d.bytes = .ok (matched d) :=
      fun d hd => hall d (List.mem_cons_of_mem _ hd)
    rw [List.cons_append, keepAll, hkeeps, List.length_cons, Nat.add_comm before.length,
      ← Nat.add_assoc]
    cases hd : matched d != rule.invert with
    | true =>
      obtain ⟨m', h', hm'⟩ := keepAll_append rest (d.text :: kept) (scanned + 1) h₁ hrest
      refine ⟨m', h', ?_⟩
      rw [List.filter_cons, if_pos hd, List.map_cons, List.reverse_cons, List.append_assoc]
      exact hm'
    | false =>
      obtain ⟨m', h', hm'⟩ := keepAll_append rest kept (scanned + 1) h₁ hrest
      refine ⟨m', h', ?_⟩
      rw [List.filter_cons, if_neg (Bool.eq_false_iff.mp hd)]
      exact hm'

end Matcher

/-! ## 3. Texts -/

namespace Plan

variable {D : Decimals} {p : Plan} {rule : FilterRule} {input : String}

/-- A text all of whose documents can be judged. -/
theorem filter_of_all {matched : Document → Bool}
    (hall : ∀ d ∈ Document.ofText input,
      d.bytes.length ≤ rule.limit ∧ p.test D d.bytes = .ok (matched d)) :
    p.filter D rule input =
      .ok ⟨((Document.ofText input).filter fun d => matched d != rule.invert).map Document.text,
        (Document.ofText input).length⟩ := by
  obtain ⟨m, -, hm⟩ := Matcher.keepAll_append [] [] 0 (Matcher.shaped_fresh p).reset hall
  rw [List.append_nil] at hm
  rw [filter, hm, Matcher.keepAll, List.append_nil, List.reverse_reverse, Nat.zero_add]

/-- **What comes of a text is settled by the first document that cannot be judged.** -/
theorem filter_of_first {before after : List Document} {d : Document} {e : FilterError}
    (hdocs : Document.ofText input = before ++ d :: after)
    (hbefore : ∀ d ∈ before, d.bytes.length ≤ rule.limit ∧ ∃ b, p.test D d.bytes = .ok b)
    (hd : ∀ m : Matcher, m.reset = .fresh p → m.keeps D rule d = .error e) :
    p.filter D rule input = .error e := by
  have hmatched : ∀ d ∈ before, d.bytes.length ≤ rule.limit ∧
      p.test D d.bytes = .ok ((p.test D d.bytes).toOption.getD false) := fun d hd => by
    obtain ⟨hlen, b, hb⟩ := hbefore d hd
    refine ⟨hlen, ?_⟩
    rw [hb]
    rfl
  obtain ⟨m, h, hm⟩ := Matcher.keepAll_append (d :: after) [] 0 (Matcher.shaped_fresh p).reset
    hmatched
  rw [filter, hdocs, hm, Matcher.keepAll, hd m h]

end Plan

/-! ## 4. Answers -/

namespace FilterRequest

variable {kit : Toolkit} {q : FilterRequest} {e : Expr} {p : Plan} {input : String}

/-- The request for what another leaves out. -/
def inverted (q : FilterRequest) : FilterRequest :=
  { q with rule := { q.rule with invert := !q.rule.invert } }

theorem answer_eq (hexpr : Expr.ofText? kit.json q.expression = some e)
    (hplan : Plan.compile kit e = .ok p) (hinput : q.input = some input)
    (hcheck : q.checkOnly = false) (hexplain : q.explain = false) :
    q.answer kit = (p.filter kit.decimals q.rule input).map .selection := by
  rw [answer, hexpr]
  simp only [hplan, hcheck, hexplain, hinput, Bool.false_eq_true, if_false]

/-- **Filtering judges each document on its own**, as a new matcher does. If all can be judged, those
    that are kept are the ones of which what is said differs from `invert`, and the inverted request
    keeps exactly the others. If not, the first that cannot be judged is reported, and first of all
    that it is too large. -/
theorem answer_judges_alone (hexpr : Expr.ofText? kit.json q.expression = some e)
    (hplan : Plan.compile kit e = .ok p) (hinput : q.input = some input)
    (hcheck : q.checkOnly = false) (hexplain : q.explain = false) :
    ∃ docs, docs = (((input.toList.splitOn '\n').zipIdx 1).filterMap fun (text, line) =>
        if Text.trim text = [] then none else some ⟨line, String.ofList (Text.trim text)⟩) ∧
      (∀ matched : Document → Bool,
        (∀ d ∈ docs, d.bytes.length ≤ q.rule.limit ∧
          ((Matcher.fresh p).run kit.decimals d.bytes).1 = .ok (matched d)) →
        q.answer kit = .ok (.selection
          ⟨(docs.filter fun d => matched d != q.rule.invert).map Document.text, docs.length⟩) ∧
        q.inverted.answer kit = .ok (.selection
          ⟨(docs.filter fun d => !(matched d != q.rule.invert)).map Document.text,
            docs.length⟩)) ∧
      ∀ before d after, docs = before ++ d :: after →
        (∀ d ∈ before, d.bytes.length ≤ q.rule.limit ∧
          ∃ matched, ((Matcher.fresh p).run kit.decimals d.bytes).1 = .ok matched) →
        (q.rule.limit < d.bytes.length →
          q.answer kit = .error (.tooLarge d.line d.bytes.length q.rule.limit)) ∧
        ∀ e, d.bytes.length ≤ q.rule.limit →
          ((Matcher.fresh p).run kit.decimals d.bytes).1 = .error e →
          q.answer kit = .error (.document d.line e) := by
  refine ⟨Document.ofText input, Document.ofText_eq input, fun matched hall => ⟨?_, ?_⟩,
    fun before d after hdocs hbefore => ⟨fun hlen => ?_, fun e hlen ht => ?_⟩⟩
  · rw [answer_eq hexpr hplan hinput hcheck hexplain, Plan.filter_of_all hall]
    rfl
  · have hothers : ∀ d, (matched d != q.inverted.rule.invert) = !(matched d != q.rule.invert) :=
      fun d => by
        show (matched d != !q.rule.invert) = _
        cases matched d <;> cases q.rule.invert <;> rfl
    have hall' : ∀ d ∈ Document.ofText input, d.bytes.length ≤ q.inverted.rule.limit ∧
        p.test kit.decimals d.bytes = .ok (matched d) := hall
    rw [answer_eq (q := q.inverted) hexpr hplan hinput hcheck hexplain, Plan.filter_of_all hall']
    simp only [hothers]
    rfl
  · rw [answer_eq hexpr hplan hinput hcheck hexplain, Plan.filter_of_first hdocs hbefore
      fun m _ => Matcher.keeps_of_large hlen]
    rfl
  · rw [answer_eq hexpr hplan hinput hcheck hexplain, Plan.filter_of_first hdocs hbefore
      fun m h => Matcher.keeps_of_error h hlen ht]
    rfl

/-- To keep the documents some element of which is true. -/
def anyTrue (limit : Nat) (input : String) : FilterRequest where
  expression := "\x7b\"any_in\":[1,\x7b\"field\":[0]\x7d,\x7b\"field\":[1]\x7d]\x7d"
  input := some input
  rule := ⟨limit, false⟩
  checkOnly := false
  explain := false

/-- The first document breaks off its loop, and the next on line 3 is judged all the same. One that
    ends too soon is reported, unless it is too large. -/
theorem answer_judges_alone_anyTrue : ∃ p,
    Expr.ofText? .standard (anyTrue 8 "").expression = some Plan.anyTrue ∧
    Plan.compile .standard Plan.anyTrue = .ok p ∧
    (anyTrue 8 "[true,0]\n \n [false]").answer .standard = .ok (.selection ⟨["[true,0]"], 2⟩) ∧
    (anyTrue 8 "[true,0]\n \n [false]").inverted.answer .standard =
      .ok (.selection ⟨["[false]"], 2⟩) ∧
    (anyTrue 8 "[true,0]\n \n [null").answer .standard = .error (.document 3 .unexpectedEnd) ∧
    (anyTrue 8 "[true,0]\n[null,false").answer .standard = .error (.tooLarge 2 11 8) := by
  obtain ⟨p, hp⟩ := Plan.compileAll_anyTrue
  have hplan : Plan.compile .standard Plan.anyTrue = .ok p := hp
  have hexpr : Expr.ofText? .standard (anyTrue 8 "").expression = some Plan.anyTrue := by cbv
  have told {text : Bytes} {r : Except MatchError Bool}
      (h : (Plan.compileAll .standard [Plan.anyTrue]).map (·.test .standard text) = .ok r) :
      ((Matcher.fresh p).run .standard text).1 = r := Plan.eq_of_map hp h
  have hjudged : ∀ d ∈ [(⟨1, "[true,0]"⟩ : Document), ⟨3, "[false]"⟩], d.bytes.length ≤ 8 ∧
      ((Matcher.fresh p).run .standard d.bytes).1 = .ok (d.line == 1) := fun d hd => by
    rcases List.mem_pair.mp hd with rfl | rfl
    · exact ⟨by decide, told (by cbv)⟩
    · exact ⟨by decide, told (by cbv)⟩
  have hbefore : ∀ d ∈ [(⟨1, "[true,0]"⟩ : Document)], d.bytes.length ≤ 8 ∧
      ∃ matched, ((Matcher.fresh p).run .standard d.bytes).1 = .ok matched := fun d hd => by
    obtain ⟨hlen, ht⟩ := hjudged d (List.mem_cons.mpr (.inl (List.mem_singleton.mp hd)))
    exact ⟨hlen, _, ht⟩
  obtain ⟨docs, hdocs, hall, -⟩ := answer_judges_alone
    (q := anyTrue 8 "[true,0]\n \n [false]") hexpr hplan rfl rfl rfl
  obtain rfl : docs = [⟨1, "[true,0]"⟩, ⟨3, "[false]"⟩] := hdocs.trans (by cbv)
  obtain ⟨hkept, hothers⟩ := hall (fun d => d.line == 1) hjudged
  refine ⟨p, hexpr, hplan, hkept, hothers, ?_, ?_⟩
  · obtain ⟨docs, hdocs, -, hfirst⟩ := answer_judges_alone
      (q := anyTrue 8 "[true,0]\n \n [null") hexpr hplan rfl rfl rfl
    have hsplit : docs = [⟨1, "[true,0]"⟩] ++ ⟨3, "[null"⟩ :: [] := hdocs.trans (by cbv)
    exact (hfirst _ _ _ hsplit hbefore).2 .unexpectedEnd (by decide) (told (by cbv))
  · obtain ⟨docs, hdocs, -, hfirst⟩ := answer_judges_alone
      (q := anyTrue 8 "[true,0]\n[null,false") hexpr hplan rfl rfl rfl
    have hsplit : docs = [⟨1, "[true,0]"⟩] ++ ⟨2, "[null,false"⟩ :: [] := hdocs.trans (by cbv)
    exact (hfirst _ _ _ hsplit hbefore).1 (by decide)

end FilterRequest

end Sift
