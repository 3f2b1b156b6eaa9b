import Mathlib
import QualityGate.Check.WellFormed
import QualityGate.Proofs.Scan.Nesting
import QualityGate.Proofs.Text.Position

/-! The scan of any text at all. Every token takes it forward and none takes it past the end, so that it ends; what it
reports stands in the text, at the line and the column that are told. -/

namespace QualityGate.Scan.Brackets

open Text Relation

/-! How many characters a token takes at most. -/

section rest

variable {r : List Char} {n m : Nat} {inClass opens : Bool}

theorem stringRest_le (quote : Char) (r : List Char) (n : Nat) : stringRest quote r n ≤ n + r.length := by
  fun_induction stringRest quote r n with
  | case1 n => simp
  | case2 n c r ih =>
    simp only [List.length_cons]
    omega
  | case3 => simp
  | case4 => simp
  | case5 n c r _ _ _ ih =>
    simp only [List.length_cons]
    omega

/-- The rest of template text reaches to the end of the template or of the opener of an expression. -/
theorem exists_of_templateRest (h : templateRest? r n = some (m, opens)) :
    ∃ u v, r = u ++ v ∧ m = n + u.length ∧ (opens = true → Opener.expression.text.toList <:+ u) := by
  fun_induction templateRest? r n with
  | case1 => cases h
  | case2 c r n ih =>
    obtain ⟨u, v, rfl, rfl, hopens⟩ := ih h
    refine ⟨'\\' :: c :: u, v, rfl, ?_, fun ho => ((hopens ho).trans (List.suffix_cons _ _)).trans (List.suffix_cons _ _)⟩
    simp only [List.length_cons]
    omega
  | case3 r n =>
    cases h
    exact ⟨['\x60'], r, rfl, rfl, nofun⟩
  | case4 r n =>
    cases h
    exact ⟨['$', '\x7b'], r, rfl, rfl, fun _ => List.suffix_rfl⟩
  | case5 c r n _ _ _ ih =>
    obtain ⟨u, v, rfl, rfl, hopens⟩ := ih h
    refine ⟨c :: u, v, rfl, ?_, fun ho => (hopens ho).trans (List.suffix_cons _ _)⟩
    simp only [List.length_cons]
    omega

theorem regexRest?_le (h : regexRest? r n inClass = some m) : m ≤ n + r.length := by
  fun_induction regexRest? r n inClass with
  | case1 => cases h
  | case3 => cases h
  | case2 c r n inClass ih =>
    have := ih h
    simp only [List.length_cons]
    omega
  | case5 c r n =>
    obtain rfl := Option.some.inj h
    have := (List.takeWhile_sublist isLetter (l := r)).length_le
    simp only [List.length_cons]
    omega
  | case4 c r n _ _ ih | case6 c r n _ _ _ _ _ ih =>
    have := ih h
    simp only [List.length_cons]
    omega

theorem blockRest?_le (h : blockRest? r n = some m) : m ≤ n + r.length := by
  fun_induction blockRest? r n with
  | case1 => cases h
  | case2 r n =>
    obtain rfl := Option.some.inj h
    simp
  | case3 c r n _ ih =>
    have := ih h
    simp only [List.length_cons]
    omega

theorem lineRest_le (r : List Char) : lineRest r ≤ r.length := (List.takeWhile_sublist _).length_le

end rest

/-! What a token leaves behind. -/

/-- What the message about a problem names stands where the problem is. -/
def Problem.StandsAt (text : List Char) (index : Nat) : Problem → Prop
  | unterminatedComment => "/*".toList <+: text.drop index
  | unterminatedTemplate => ['\x60'] <+: text.drop index ∨ Opener.expression.text.toList <+: text.drop index
  | unterminatedExpression => Opener.expression.text.toList <+: text.drop index
  | unexpected c => (∃ o, closes? c = some o) ∧ [c] <+: text.drop index
  | mismatch c o line => (∃ o, closes? c = some o) ∧ [c] <+: text.drop index ∧
      ∃ openedAt < index, o.text.toList <+: text.drop openedAt ∧ line = lineOf text openedAt
  | unclosed o => o.text.toList <+: text.drop index

/-- Every opener on the stack stands before a place, where the stack says. -/
def Opened (text : List Char) (index : Nat) (st : Stack) : Prop :=
  ∀ e ∈ st, e.2 < index ∧ e.1.text.toList <+: text.drop e.2

/-- A token ends in the text and its stack names openers of the text, or its fault stands where it says. -/
def Effect.Sound (text : List Char) (index : Nat) (r : List Char) : Effect → Prop
  | fault f => f.problem.StandsAt text f.index
  | next st _ extra => extra ≤ r.length ∧ Opened text (index + 1 + extra) st

section effect

variable {text r : List Char} {before : Option Char} {c : Char} {index openedAt extra : Nat} {st : Stack} {last last' : Last}

theorem Opened.mono {index' : Nat} (h : Opened text index st) (hle : index ≤ index') : Opened text index' st :=
  fun e he => ⟨(h e he).1.trans_le hle, (h e he).2⟩

theorem Opened.cons {o : Opener} (hlt : openedAt < index) (hstands : o.text.toList <+: text.drop openedAt)
    (h : Opened text index st) : Opened text index ((o, openedAt) :: st) :=
  List.forall_mem_cons.mpr ⟨⟨hlt, hstands⟩, h⟩

theorem sound_next (hst : Opened text index st) (hextra : extra ≤ r.length) : (Effect.next st last extra).Sound text index r :=
  ⟨hextra, hst.mono (by omega)⟩

theorem stands_of_drop (hrest : text.drop index = c :: r) : [c] <+: text.drop index := hrest ▸ ⟨r, rfl⟩

theorem symbol_sound (hrest : text.drop index = c :: r) (hst : Opened text index st) :
    (symbol text c index st).Sound text index r := by
  cases ho : opener? c with
  | some o =>
    have hstands : o.text.toList <+: text.drop index := by
      rcases opener?_eq_some_iff.mp ho with ⟨rfl, rfl⟩ | ⟨rfl, rfl⟩ | ⟨rfl, rfl⟩ <;> exact stands_of_drop hrest
    rw [symbol_opener ho]
    exact ⟨Nat.zero_le _, (hst.mono (by omega)).cons (by omega) hstands⟩
  | none =>
    cases hc : closes? c with
    | none =>
      rw [symbol_mark ho hc]
      exact sound_next hst (Nat.zero_le _)
    | some o =>
      cases st with
      | nil =>
        rw [symbol_unexpected hc]
        exact ⟨⟨o, hc⟩, stands_of_drop hrest⟩
      | cons e below =>
        obtain ⟨top, openedAt⟩ := e
        obtain ⟨⟨hlt, hstands⟩, hbelow⟩ := List.forall_mem_cons.mp hst
        by_cases htop : top = o
        · subst htop
          rw [symbol_match hc]
          exact sound_next hbelow (Nat.zero_le _)
        · rw [symbol_mismatch hc htop]
          exact ⟨⟨o, hc⟩, stands_of_drop hrest, openedAt, hlt, hstands, rfl⟩

theorem template_sound (hrest : text.drop index = c :: r) (hst : Opened text index st)
    (hopened : Problem.unterminatedTemplate.StandsAt text openedAt) :
    (template r index openedAt st).Sound text index r := by
  cases htemplate : templateRest? r 0 with
  | none =>
    rw [template, htemplate]
    exact hopened
  | some found =>
    obtain ⟨n, opens⟩ := found
    obtain ⟨u, v, rfl, hn, hopens⟩ := exists_of_templateRest htemplate
    obtain rfl : n = u.length := hn.trans (Nat.zero_add _)
    have hlength : u.length ≤ (u ++ v).length := by simp
    cases opens with
    | false =>
      rw [template, htemplate]
      exact sound_next hst hlength
    | true =>
      rw [template, htemplate]
      obtain ⟨w, rfl⟩ := hopens rfl
      have htwo : Opener.expression.text.toList.length = 2 := rfl
      -- The opener takes the last two characters of the token.
      have hdrop : text.drop (index + (w ++ Opener.expression.text.toList).length - 1) =
          Opener.expression.text.toList ++ v := by
        have hindex : index + (w ++ Opener.expression.text.toList).length - 1 = index + (w.length + 1) := by
          rw [List.length_append, htwo]
          omega
        rw [hindex, ← List.drop_drop, hrest, List.drop_succ_cons, List.append_assoc, List.drop_left]
      refine ⟨hlength, (hst.mono (by omega)).cons ?_ (hdrop ▸ List.prefix_append _ _)⟩
      rw [List.length_append, htwo]
      omega

theorem slash_sound (hrest : text.drop index = '/' :: r) (hst : Opened text index st) :
    (slash text r index st last).Sound text index r := by
  unfold slash
  split
  case h_1 r =>
    refine sound_next hst ?_
    have := lineRest_le r
    simp only [List.length_cons]
    omega
  case h_2 r =>
    split
    case h_1 n hblock =>
      refine sound_next hst ?_
      have := blockRest?_le hblock
      simp only [List.length_cons]
      omega
    case h_2 =>
      show "/*".toList <+: text.drop index
      exact hrest ▸ ⟨r, rfl⟩
  case h_3 =>
    dsimp only
    split
    case h_1 n hregex =>
      split at hregex
      case isTrue => exact sound_next hst (by simpa using regexRest?_le hregex)
      case isFalse => cases hregex
    case h_2 => exact symbol_sound hrest hst

theorem wordOrSymbol_sound (hrest : text.drop index = c :: r) (hst : Opened text index st) :
    (wordOrSymbol text c r index st).Sound text index r := by
  unfold wordOrSymbol
  split
  · exact sound_next hst (List.takeWhile_sublist _).length_le
  · exact symbol_sound hrest hst

theorem effect_sound (hrest : text.drop index = c :: r) (hst : Opened text index st) :
    (effect text before c r index st last).Sound text index r := by
  unfold effect
  split_ifs with hblank hslash hprose hquote htick hclosing
  · exact sound_next hst (Nat.zero_le _)
  · obtain rfl := beq_iff_eq.mp hslash
    exact slash_sound hrest hst
  · exact sound_next hst (Nat.zero_le _)
  · exact sound_next hst (by simpa using stringRest_le c r 0)
  · obtain rfl := beq_iff_eq.mp htick
    exact template_sound hrest hst (.inl (stands_of_drop hrest))
  · cases st with
    | nil => exact sound_next hst (Nat.zero_le _)
    | cons e below =>
      obtain ⟨o, openedAt⟩ := e
      obtain ⟨⟨-, hstands⟩, hbelow⟩ := List.forall_mem_cons.mp hst
      obtain rfl : o = .expression := by
        cases o with
        | expression => rfl
        | _ => simp [topIsExpression] at hclosing
      exact template_sound hrest hbelow (.inr hstands)
  · exact wordOrSymbol_sound hrest hst

end effect

/-! The scan, token by token. -/

/-- Where a scan stands: the rest of the text, which begins at the index, and what it knows of the text before it. -/
structure State where
  before : Option Char
  index : Nat
  stack : Stack
  last : Last
  rest : List Char

def State.initial (text : List Char) : State := ⟨none, 0, [], .start, text⟩

inductive Step (text : List Char) : State → State → Prop
  | token {before : Option Char} {c : Char} {r : List Char} {index extra : Nat} {st st' : Stack} {last last' : Last}
    (h : effect text before c r index st last = .next st' last' extra) :
    Step text ⟨before, index, st, last, c :: r⟩ ⟨some (lastOf c r extra), index + 1 + extra, st', last', r.drop extra⟩

/-- The scan ends at a fault or at the end of the text. -/
inductive Ends (text : List Char) : State → Option Imbalance → Prop
  | fault {before : Option Char} {c : Char} {r : List Char} {index : Nat} {st : Stack} {last : Last} {f : Imbalance}
    (h : effect text before c r index st last = .fault f) : Ends text ⟨before, index, st, last, c :: r⟩ (some f)
  | atEnd (before : Option Char) (index : Nat) (st : Stack) (last : Last) : Ends text ⟨before, index, st, last, []⟩ (unclosed? st)

structure State.Sound (text : List Char) (s : State) : Prop where
  rest : text.drop s.index = s.rest
  index : s.index ≤ text.length
  stack : Opened text s.index s.stack

section run

variable {text : List Char} {s t : State} {f : Imbalance} {found : Option Imbalance}

theorem State.initial_sound (text : List Char) : (State.initial text).Sound text where
  rest := rfl
  index := Nat.zero_le _
  stack := nofun

theorem Step.lt (h : Step text s t) : s.index < t.index := by
  cases h with
  | @token before c r index extra =>
    show index < index + 1 + extra
    omega

theorem Step.sound (h : Step text s t) (hs : s.Sound text) : t.Sound text := by
  cases h with
  | @token before c r index extra st st' last last' h =>
    obtain ⟨hrest, hindex, hst⟩ := hs
    have hsound : (effect text before c r index st last).Sound text index r := effect_sound hrest hst
    rw [h] at hsound
    obtain ⟨hextra, hst'⟩ := hsound
    have hlength : (text.drop index).length = r.length + 1 := congrArg List.length hrest
    rw [List.length_drop] at hlength
    refine ⟨?_, ?_, hst'⟩
    · show text.drop (index + 1 + extra) = r.drop extra
      rw [Nat.add_assoc, ← List.drop_drop, hrest, Nat.add_comm 1, List.drop_succ_cons]
    · show index + 1 + extra ≤ text.length
      omega

theorem State.Sound.of_reachable (hs : s.Sound text) (h : ReflTransGen (Step text) s t) : t.Sound text := by
  induction h with
  | refl => exact hs
  | tail _ hstep ih => exact hstep.sound ih

theorem Ends.standsAt (h : Ends text s (some f)) (hs : s.Sound text) : f.problem.StandsAt text f.index := by
  generalize hfound : some f = found at h
  cases h with
  | @fault before c r index st last g h =>
    obtain rfl := Option.some.inj hfound
    have hsound : (effect text before c r index st last).Sound text index r := effect_sound hs.rest hs.stack
    rwa [h] at hsound
  | atEnd before index st last =>
    cases st with
    | nil => cases hfound
    | cons e below =>
      obtain ⟨o, openedAt⟩ := e
      have hstands := (hs.stack _ List.mem_cons_self).2
      cases o <;>
      · obtain rfl := Option.some.inj hfound
        exact hstands

/-- A scan goes from token to token until it ends. -/
theorem exists_ends (text : List Char) (s : State) :
    ∃ t, ReflTransGen (Step text) s t ∧ Ends text t (scanFrom text s.before s.index s.stack s.last s.rest) := by
  obtain ⟨before, index, st, last, rest⟩ := s
  induction hn : rest.length using Nat.strong_induction_on generalizing before index st last rest with
  | _ n ih =>
    cases rest with
    | nil =>
      rw [scanFrom.eq_def]
      exact ⟨_, .refl, .atEnd before index st last⟩
    | cons c r =>
      rw [scanFrom.eq_def]
      cases heffect : effect text before c r index st last with
      | fault f =>
        simp only [heffect]
        exact ⟨_, .refl, .fault heffect⟩
      | next st' last' extra =>
        simp only [heffect]
        have hshorter : (r.drop extra).length < n := by
          rw [← hn, List.length_drop, List.length_cons]
          omega
        obtain ⟨t, hreach, hends⟩ := ih _ hshorter _ _ _ _ _ rfl
        exact ⟨t, .head (.token heffect) hreach, hends⟩

theorem length_run_le (hs : s.Sound text) {run : List State} (h : (s :: run).IsChain (Step text)) :
    s.index + run.length ≤ text.length := by
  induction run generalizing s with
  | nil => exact hs.index
  | cons t run ih =>
    obtain ⟨hstep, hrun⟩ := List.isChain_cons_cons.mp h
    have hlt := hstep.lt
    have hrest := ih (hstep.sound hs) hrun
    rw [List.length_cons]
    omega

end run

/-! The place of a problem. -/

theorem getElem?_of_prefix_drop {text w : List Char} {index : Nat} {c : Char} (h : c :: w <+: text.drop index) :
    text[index]? = some c := by
  obtain ⟨v, hv⟩ := h
  rw [← List.head?_drop, ← hv]
  rfl

theorem Problem.StandsAt.exists_char {text : List Char} {index : Nat} {p : Problem} (h : p.StandsAt text index) :
    ∃ c, text[index]? = some c ∧ c ≠ '\n' := by
  have hopener (o : Opener) (ho : o.text.toList <+: text.drop index) : ∃ c, text[index]? = some c ∧ c ≠ '\n' := by
    cases o <;> exact ⟨_, getElem?_of_prefix_drop ho, by decide⟩
  have hcloser (c : Char) (hc : ∃ o, closes? c = some o) (hstands : [c] <+: text.drop index) :
      ∃ c, text[index]? = some c ∧ c ≠ '\n' := by
    refine ⟨c, getElem?_of_prefix_drop hstands, ?_⟩
    rintro rfl
    obtain ⟨o, ho⟩ := hc
    cases ho
  cases p with
  | unterminatedComment => exact ⟨_, getElem?_of_prefix_drop h, by decide⟩
  | unterminatedTemplate =>
    rcases h with htick | hexpression
    · exact ⟨_, getElem?_of_prefix_drop htick, by decide⟩
    · exact hopener _ hexpression
  | unterminatedExpression => exact hopener _ h
  | unexpected c => exact hcloser c h.1 h.2
  | mismatch c o line => exact hcloser c h.1 h.2.1
  | unclosed o => exact hopener o h

/-- The scan of a text comes to its end in no more steps than the text has characters, each of which takes it forward in
the text. What is reported stands in the text, at the line and the column of the issue. -/
theorem scan_progress (text : List Char) :
    (∀ run : List State, (State.initial text :: run).IsChain (Step text) → run.length ≤ text.length) ∧
      (∀ s t, ReflTransGen (Step text) (.initial text) s → Step text s t → s.index < t.index ∧ t.index ≤ text.length) ∧
      (∃ s, ReflTransGen (Step text) (.initial text) s ∧ Ends text s (firstImbalance? text)) ∧
      ∀ f, firstImbalance? text = some f →
        f.index < text.length ∧ f.problem.StandsAt text f.index ∧
          ∀ ctx file, let issue := Check.WellFormed.unbalanced ctx file text f
            1 ≤ issue.line ∧ 1 ≤ issue.column ∧ Locates text f.index issue.line issue.column := by
  have hsound := State.initial_sound text
  obtain ⟨last, hreach, hends⟩ := exists_ends text (.initial text)
  refine ⟨fun run hrun => ?_, fun s t hs hstep => ?_, ⟨last, hreach, hends⟩, fun f hf => ?_⟩
  · simpa [State.initial] using length_run_le hsound hrun
  · exact ⟨hstep.lt, (hstep.sound (hsound.of_reachable hs)).index⟩
  · have hstands : f.problem.StandsAt text f.index := by
      refine Ends.standsAt ?_ (hsound.of_reachable hreach)
      rwa [← hf]
    obtain ⟨c, hc, hfeed⟩ := hstands.exists_char
    exact ⟨(List.getElem?_eq_some_iff.mp hc).1, hstands, fun ctx file =>
      ⟨Nat.le_add_left 1 _, Nat.le_add_left 1 _, locates hc hfeed⟩⟩

/-- A template that a backslash keeps from ending, on the second line. -/
theorem scan_progress_escaped :
    firstImbalance? "(\n\x60\\".toList = some ⟨2, .unterminatedTemplate⟩ ∧
      ∀ ctx file, Locates "(\n\x60\\".toList 2
        (Check.WellFormed.unbalanced ctx file "(\n\x60\\".toList ⟨2, .unterminatedTemplate⟩).line
        (Check.WellFormed.unbalanced ctx file "(\n\x60\\".toList ⟨2, .unterminatedTemplate⟩).column := by
  have hfound : firstImbalance? "(\n\x60\\".toList = some ⟨2, .unterminatedTemplate⟩ := by cbv
  obtain ⟨-, -, hplace⟩ := (scan_progress "(\n\x60\\".toList).2.2.2 _ hfound
  exact ⟨hfound, fun ctx file => (hplace ctx file).2.2⟩

end QualityGate.Scan.Brackets
