/-
What a surface over a buffer and a screen looks like, and settings that do not interfere.

A setting touches some of the fields of a surface, and the theme of the notifier is a field
among them.  The appearance of a surface is everything about it that a setting can change, and
`Appearance.adjust` says what it is after a setting.  Every setting that has an effect hands
the runs of the whole state over again and lays the whole layout out, so what is shown depends
on the fields and not on which of them was set last.  Settings that touch different fields
therefore commute (`Appearance.adjust_comm`).

That two lists are permutations of each other that keep the order on every field is
`Reordered`.  Going from one to the other takes nothing but swaps of neighbours that touch
different fields, so a fold for which these commute cannot tell them apart (`Reordered.foldl_eq`).
-/
import QueryView.Proofs.Terminal.Cutoff
import QueryView.Surface.Buffer
import QueryView.Surface.Screen
import QueryView.Surface.Setup

namespace QueryView

/-! ## Reordering -/

/-- The lists are permutations of each other, and what touches one field stands in the same
order in both. -/
structure Reordered {α φ : Type} [DecidableEq φ] (fields : α → List φ) (as bs : List α) : Prop where
  perm : as.Perm bs
  order : ∀ x, as.filter (fun a => x ∈ fields a) = bs.filter (fun b => x ∈ fields b)

namespace Reordered

variable {α β φ : Type} [DecidableEq φ] {fields : α → List φ} {a : α} {as pre post : List α}

/-- What touches a field of the first in one list does not stand before it in the other. -/
theorem apart (h : Reordered fields (a :: as) (pre ++ a :: post)) (hpre : a ∉ pre) {b : α}
    (hb : b ∈ pre) : ∀ x ∈ fields a, x ∉ fields b := by
  intro x hxa hxb
  have horder := h.order x
  rw [List.filter_cons_of_pos (by simpa using hxa), List.filter_append] at horder
  have hbefore : b ∈ pre.filter fun c => x ∈ fields c := by simp [hb, hxb]
  cases hfirst : pre.filter fun c => x ∈ fields c with
  | nil => simp [hfirst] at hbefore
  | cons c rest =>
    rw [hfirst, List.cons_append, List.cons.injEq] at horder
    have hc : c ∈ pre.filter fun b => x ∈ fields b := hfirst ▸ List.mem_cons_self
    exact hpre (horder.1 ▸ (List.mem_filter.mp hc).1)

/-- Without its first the one list is a reordering of the other without it. -/
theorem tail (h : Reordered fields (a :: as) (pre ++ a :: post)) (hpre : a ∉ pre) :
    Reordered fields as (pre ++ post) where
  perm := (h.perm.trans List.perm_middle).cons_inv
  order x := by
    have horder := h.order x
    rw [List.filter_append] at horder ⊢
    by_cases hx : x ∈ fields a
    · have hnone : pre.filter (fun b => x ∈ fields b) = [] :=
        List.filter_eq_nil_iff.mpr fun b hb => by simpa using h.apart hpre hb x hx
      rw [hnone, List.filter_cons_of_pos (by simpa using hx),
        List.filter_cons_of_pos (by simpa using hx)] at horder
      rw [hnone]
      exact (List.cons.inj horder).2
    · rwa [List.filter_cons_of_neg (by simpa using hx),
        List.filter_cons_of_neg (by simpa using hx)] at horder

/-- What commutes with all of a list can be done before it or after it. -/
theorem foldl_past {f : β → α → β} (hpre : ∀ b ∈ pre, ∀ s, f (f s a) b = f (f s b) a) (s : β) :
    pre.foldl f (f s a) = f (pre.foldl f s) a := by
  induction pre generalizing s with
  | nil => rfl
  | cons b pre ih =>
    obtain ⟨hb, hrest⟩ := List.forall_mem_cons.mp hpre
    rw [List.foldl_cons, List.foldl_cons, hb, ih hrest]

theorem foldl_eq {f : β → α → β} {bs : List α} (h : Reordered fields as bs)
    (hcomm : ∀ a b, (∀ x ∈ fields a, x ∉ fields b) → ∀ s, f (f s a) b = f (f s b) a) (s : β) :
    as.foldl f s = bs.foldl f s := by
  induction as generalizing bs s with
  | nil => rw [h.perm.nil_eq]
  | cons a as ih =>
    obtain ⟨pre, post, rfl, hpre⟩ := List.eq_append_cons_of_mem (h.perm.subset List.mem_cons_self)
    calc (a :: as).foldl f s = (pre ++ post).foldl f (f s a) := ih (h.tail hpre) (f s a)
      _ = post.foldl f (pre.foldl f (f s a)) := List.foldl_append
      _ = post.foldl f (f (pre.foldl f s) a) := by
        rw [foldl_past fun b hb => hcomm a b (h.apart hpre hb)]
      _ = (pre ++ a :: post).foldl f s := by rw [List.foldl_append, List.foldl_cons]

end Reordered

namespace Surface

open Terminal (Screen)

/-! ## Fields -/

/-- What is set on its own. -/
inductive Field where
  | text
  | language
  | plainTextColor
  | theme
  | fontSize
  | fontFamily
  | padding
  | placeholder
  | readOnly
  | autosize
  deriving DecidableEq

/-- A change of a setting of one surface, or of the theme. -/
inductive Adjustment where
  | theme (t : Theme)
  | setting (s : Setting)
  deriving DecidableEq

def LayoutChange.fields : LayoutChange → List Field
  | .fontSize _ => [.fontSize]
  | .fontFamily _ => [.fontFamily]
  | .padding _ => [.padding]
  | .placeholder _ => [.placeholder]
  | .readOnly _ => [.readOnly]
  | .autosize _ => [.autosize]
  | .all _ => [.fontSize, .fontFamily, .padding, .placeholder, .readOnly, .autosize]

def Setting.fields : Setting → List Field
  | .text _ => [.text]
  | .language _ => [.language]
  | .plainTextColor _ => [.plainTextColor]
  | .layout change => change.fields

namespace Adjustment

def fields : Adjustment → List Field
  | .theme _ => [.theme]
  | .setting s => s.fields

def operation {E R : Type} (n : Nat) : Adjustment → Operation E R
  | .theme t => .setTheme t
  | .setting s => .on n s.request

end Adjustment

theorem LayoutChange.apply_comm {a b : LayoutChange} (h : ∀ x ∈ a.fields, x ∉ b.fields)
    (layout : Layout) : b.apply (a.apply layout) = a.apply (b.apply layout) := by
  cases a <;> cases b <;> first | rfl | simp [fields] at h

/-! ## Appearances -/

/-- Everything of a surface that settings can change, with the theme of its notifier. -/
structure Appearance where
  theme : Theme
  /-- The notifier tells the surface of a new theme. -/
  subscribed : Bool
  state : State
  runs : RunSequence
  editable : Buffer
  /-- The screen, as if nothing had been written to its sink. -/
  rendered : Screen

namespace Appearance

variable {p : Appearance}

/-- The runs of the state are handed to the screen. -/
def shown (p : Appearance) : Appearance :=
  { p with runs := p.state.runs, rendered := p.rendered.showing p.state.runs }

/-- Both layers are given the layout of the state. -/
def laidOut (p : Appearance) : Appearance :=
  { p with
    editable := { p.editable with layout := p.state.layout }
    rendered := p.rendered.applyLayout p.state.layout }

/-- The surface is told of the theme. -/
def followed (p : Appearance) : Appearance :=
  { p with state := { p.state with theme := p.theme } }.shown

/-- The notifier has a new theme, and tells the surface if it is subscribed. -/
def told (p : Appearance) : Appearance := if p.subscribed then p.followed else p

def set (p : Appearance) : Setting → Appearance
  | .text t =>
    { p with
      state := { p.state with text := t }, editable := { p.editable with text := t } }.shown
  | .language l => { p with state := { p.state with language := l } }.shown
  | .plainTextColor c => { p with state := { p.state with plainTextColor := c } }.shown
  | .layout change =>
    { p with state := { p.state with layout := change.apply p.state.layout } }.laidOut.shown

/-- The theme that is set already is no news, and whoever is not subscribed hears of none. -/
def adjust (p : Appearance) : Adjustment → Appearance
  | .theme t => if p.theme = t then p else { p with theme := t }.told
  | .setting s => p.set s

theorem followed_followed (p : Appearance) : p.followed.followed = p.followed := rfl

theorem theme_set (p : Appearance) (s : Setting) : (p.set s).theme = p.theme := by
  cases s <;> rfl

theorem set_comm {a b : Setting} (h : ∀ x ∈ a.fields, x ∉ b.fields) (p : Appearance) :
    (p.set a).set b = (p.set b).set a := by
  cases a with
  | layout change =>
    cases b with
    | layout other =>
      have hlayout := LayoutChange.apply_comm h p.state.layout
      simp only [set, shown, laidOut, Screen.applyLayout, Screen.showing, hlayout]
    | _ => rfl
  | _ =>
    cases b with
    | layout other => rfl
    | _ => first | rfl | simp [Setting.fields] at h

theorem set_told (p : Appearance) (s : Setting) (t : Theme) :
    { p.set s with theme := t }.told = { p with theme := t }.told.set s := by
  cases hsubscribed : p.subscribed <;>
    cases s <;> simp only [told, set, shown, laidOut, followed, hsubscribed] <;> rfl

/-- Adjustments of different fields commute. -/
theorem adjust_comm {a b : Adjustment} (h : ∀ x ∈ a.fields, x ∉ b.fields) (p : Appearance) :
    (p.adjust a).adjust b = (p.adjust b).adjust a := by
  have hset_theme (s : Setting) (t : Theme) :
      (p.set s).adjust (.theme t) = (p.adjust (.theme t)).set s := by
    simp only [adjust, theme_set]
    split
    · rfl
    · exact p.set_told s t
  cases a with
  | setting s =>
    cases b with
    | setting s' => exact set_comm h p
    | theme t => exact hset_theme s t
  | theme t =>
    cases b with
    | setting s => exact (hset_theme s t).symm
    | theme t' => exact absurd List.mem_cons_self (h .theme List.mem_cons_self)

end Appearance
end Surface
end QueryView
