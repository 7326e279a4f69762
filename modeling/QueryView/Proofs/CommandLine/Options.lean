/-
What arguments ask for, without reading them one by one.

Arguments are taken apart into items: an item is one argument, or a width option with the
argument after it, whatever that looks like.  The options are then read off the items: of each
field the last item counts, and of the files and dashes, too, so that a dash takes back the
files before it.  `asked` says this without an order of reading, by filters.

Arguments that no items spell have a first offence: a width option without a value or with one
that is no width, or an argument that starts with a dash and is none that is known.  What comes
before it is spelled by items, and what comes after it is not looked at.

`options_are_read_off_items` is the main theorem.  Its last part is a consequence of the first:
since fields are kept apart by filters, items of different fields can be moved past each other.
-/
import Mathlib.Data.List.Basic
import Mathlib.Data.List.Induction
import QueryView.CommandLine.Options

namespace QueryView
namespace CommandLine

/-! ## Items -/

/-- What one argument asks for, or a width option with its value. -/
inductive Item where
  | language (l : Language)
  | theme (t : Theme)
  | width (n : Nat)
  | file (path : Text)
  | standardInput
  deriving DecidableEq

/-- What items can be about. -/
inductive Field where
  | language
  | theme
  | width
  | source
  deriving DecidableEq

/-- The arguments that stand for a language or a theme. -/
def flags : List (Text × Item) :=
  [("--sql".toList, .language .query), ("--json".toList, .language .json),
   ("--plain".toList, .language .plain), ("--dark".toList, .theme .dark),
   ("--light".toList, .theme .light)]

def widthOptions : List Text := ["--width".toList, "-w".toList]

namespace Item

def field : Item → Field
  | language _ => .language
  | theme _ => .theme
  | width _ => .width
  | file _ | standardInput => .source

def language? : Item → Option Language
  | language l => some l
  | _ => none

def theme? : Item → Option Theme
  | theme t => some t
  | _ => none

def width? : Item → Option Nat
  | width n => some n
  | _ => none

/-- The source that an item names, which is no file in the case of the standard input. -/
def source? : Item → Option (Option Text)
  | file path => some (some path)
  | standardInput => some none
  | _ => none

/-- The arguments spell the item. -/
inductive Spelling : Item → List Text → Prop where
  | flag {item : Item} {arg : Text} (h : (arg, item) ∈ flags) : Spelling item [arg]
  | width {option value : Text} {n : Nat} (h : option ∈ widthOptions)
      (hvalue : CommandLine.width? value = some n) : Spelling (.width n) [option, value]
  | standardInput : Spelling .standardInput [['-']]
  | file {path : Text} (h : path.head? ≠ some '-') : Spelling (.file path) [path]

end Item

/-- The arguments spell the items, one after the other. -/
inductive Spelled : List Item → List Text → Prop where
  | nil : Spelled [] []
  | cons {item : Item} {items : List Item} {part args : List Text} (h : item.Spelling part)
      (hrest : Spelled items args) : Spelled (item :: items) (part ++ args)

/-- What items ask for: of every field what the last item about it says. -/
def asked (items : List Item) : Options where
  language := (items.filterMap Item.language?).getLast?
  theme := (items.filterMap Item.theme?).getLast?
  wrapWidth := (items.filterMap Item.width?).getLast?
  file := (items.filterMap Item.source?).getLast?.join

/-- The items of each field come in the same order in both lists: one list can be had from the
other by moving items of different fields past each other. -/
def Rearranged (items items' : List Item) : Prop :=
  ∀ field, items.filter (·.field = field) = items'.filter (·.field = field)

/-- The arguments are an offence, if they are followed by those, and there is a message about
it. -/
inductive Offends : List Text → List Text → Text → Prop where
  | missing {option : Text} (h : option ∈ widthOptions) :
      Offends [option] [] (option ++ " needs a value".toList)
  | invalid {option value : Text} (h : option ∈ widthOptions) (hvalue : width? value = none)
      (after : List Text) : Offends [option, value] after ("invalid width: ".toList ++ value)
  | unknown {arg : Text} (hdash : arg.head? = some '-') (hlone : arg ≠ ['-'])
      (hwidth : arg ∉ widthOptions) (hflag : ∀ item, (arg, item) ∉ flags) (after : List Text) :
      Offends [arg] after ("unknown option: ".toList ++ arg)

variable {item : Item} {items items' : List Item} {part args args' before after offence : List Text}
  {arg m : Text} {o : Options}

/-! ## Single items -/

theorem Argument.ofText_of_unknown (hdash : arg.head? = some '-') (hlone : arg ≠ ['-'])
    (hwidth : arg ∉ widthOptions) (hflag : ∀ item, (arg, item) ∉ flags) :
    ofText arg = .unknown := by
  simp only [flags, List.mem_cons, Prod.mk.injEq, List.not_mem_nil, or_false] at hflag
  simp only [widthOptions, List.mem_cons, List.not_mem_nil, or_false] at hwidth
  rw [ofText, if_neg fun h => hflag _ (.inl ⟨h, rfl⟩),
    if_neg fun h => hflag _ (.inr (.inl ⟨h, rfl⟩)),
    if_neg fun h => hflag _ (.inr (.inr (.inl ⟨h, rfl⟩))),
    if_neg fun h => hflag _ (.inr (.inr (.inr (.inl ⟨h, rfl⟩)))),
    if_neg fun h => hflag _ (.inr (.inr (.inr (.inr ⟨h, rfl⟩)))),
    if_neg hwidth, if_neg hlone, if_pos hdash]

/-- Whatever starts with another character is a file. -/
theorem Argument.ofText_of_head?_ne (h : arg.head? ≠ some '-') : ofText arg = .file := by
  have hne : ∀ t : Text, t.head? = some '-' → arg ≠ t := fun t ht heq => h (heq ▸ ht)
  rw [ofText, if_neg (hne _ rfl), if_neg (hne _ rfl), if_neg (hne _ rfl), if_neg (hne _ rfl),
    if_neg (hne _ rfl), if_neg (not_or.mpr ⟨hne _ rfl, hne _ rfl⟩), if_neg (hne _ rfl), if_neg h]

namespace Options

/-- The options with what one more item asks for. -/
def take (o : Options) : Item → Options
  | .language l => { o with language := some l }
  | .theme t => { o with theme := some t }
  | .width n => { o with wrapWidth := some n }
  | .file path => { o with file := some path }
  | .standardInput => { o with file := none }

theorem readFrom_spelling (h : item.Spelling part) (o : Options) (args : List Text) :
    readFrom o (part ++ args) = readFrom (o.take item) args := by
  cases h with
  | flag h =>
    simp only [flags, List.mem_cons, Prod.mk.injEq, List.not_mem_nil, or_false] at h
    rcases h with ⟨rfl, rfl⟩ | ⟨rfl, rfl⟩ | ⟨rfl, rfl⟩ | ⟨rfl, rfl⟩ | ⟨rfl, rfl⟩ <;> rfl
  | @width option value n h hvalue =>
    simp only [widthOptions, List.mem_cons, List.not_mem_nil, or_false] at h
    have hwidth : Argument.ofText option = .width := by rcases h with rfl | rfl <;> rfl
    simp only [List.cons_append, List.nil_append, readFrom, hwidth, hvalue, take]
  | standardInput => rfl
  | @file path h =>
    rw [List.singleton_append, readFrom.eq_def]
    simp only [Argument.ofText_of_head?_ne h, take]

theorem readFrom_spelled (h : Spelled items args) (o : Options) (rest : List Text) :
    readFrom o (args ++ rest) = readFrom (items.foldl take o) rest := by
  induction h generalizing o with
  | nil => rfl
  | cons h _ ih => rw [List.append_assoc, readFrom_spelling h, ih, List.foldl_cons]

/-- Reading stops at an offence, whatever was read before. -/
theorem readFrom_offence (h : Offends offence after m) (o : Options) :
    ∃ failure, readFrom o (offence ++ after) = .error failure ∧ failure.message = m := by
  have hwidth : ∀ option ∈ widthOptions, Argument.ofText option = .width := by decide
  cases h with
  | @missing option h =>
    exact ⟨.missingValue option, by simp only [List.append_nil, readFrom, hwidth _ h], rfl⟩
  | @invalid option value h hvalue =>
    refine ⟨.invalidWidth value, ?_, rfl⟩
    simp only [List.cons_append, List.nil_append, readFrom, hwidth _ h, hvalue]
  | unknown hdash hlone h hflag =>
    refine ⟨.unknownOption _, ?_, rfl⟩
    rw [List.singleton_append, readFrom.eq_def]
    simp only [Argument.ofText_of_unknown hdash hlone h hflag]

end Options

/-! ## All items -/

theorem asked_append_singleton (items : List Item) (item : Item) :
    asked (items ++ [item]) = (asked items).take item := by
  cases item <;> simp [asked, Options.take, Item.language?, Item.theme?, Item.width?, Item.source?]

theorem foldl_take (items : List Item) : items.foldl Options.take {} = asked items := by
  induction items using List.reverseRecOn with
  | nil => rfl
  | append_singleton items item ih => rw [List.foldl_concat, ih, asked_append_singleton]

theorem read_spelled (h : Spelled items args) : Options.read args = .ok (asked items) := by
  rw [← foldl_take, ← List.append_nil args]
  exact Options.readFrom_spelled h {} []

theorem read_offence (hbefore : Spelled items before) (h : Offends offence after m) :
    ∃ failure, Options.read (before ++ offence ++ after) = .error failure ∧
      failure.message = m := by
  rw [List.append_assoc, Options.read, Options.readFrom_spelled hbefore]
  exact Options.readFrom_offence h _

/-! ## All arguments -/

/-- Items spell the arguments, if not up to the end, then up to an offence. -/
def Covered (args : List Text) : Prop :=
  (∃ items, Spelled items args) ∨
    ∃ items before offence after m, Spelled items before ∧ Offends offence after m ∧
      args = before ++ offence ++ after

theorem Covered.cons (h : item.Spelling part) (hargs : Covered args) : Covered (part ++ args) := by
  rcases hargs with ⟨items, hitems⟩ | ⟨items, before, offence, after, m, hbefore, hoffence, rfl⟩
  · exact .inl ⟨_, .cons h hitems⟩
  · exact .inr ⟨_, _, _, _, _, .cons h hbefore, hoffence, by simp only [List.append_assoc]⟩

theorem Covered.of_offends (h : Offends offence after m) : Covered (offence ++ after) :=
  .inr ⟨[], [], _, _, _, .nil, h, rfl⟩

/-- A width option takes the next argument along, so what is left is covered one argument or two
further on. -/
theorem covered : ∀ args, Covered args
  | [] => .inl ⟨[], .nil⟩
  | arg :: rest => by
    by_cases hflag : ∃ item, (arg, item) ∈ flags
    · obtain ⟨item, hflag⟩ := hflag
      exact (covered rest).cons (.flag hflag)
    · by_cases hwidth : arg ∈ widthOptions
      · match rest with
        | [] => exact .of_offends (.missing hwidth)
        | value :: rest =>
          cases hvalue : width? value with
          | none => exact .of_offends (.invalid hwidth hvalue rest)
          | some n => exact (covered rest).cons (.width hwidth hvalue)
      · by_cases hdash : arg.head? = some '-'
        · by_cases hlone : arg = ['-']
          · subst hlone
            exact (covered rest).cons .standardInput
          · exact .of_offends (.unknown hdash hlone hwidth (not_exists.mp hflag) rest)
        · exact (covered rest).cons (.file hdash)

/-! ## Moving items -/

theorem rearranged_swap {first second : Item} (hfields : first.field ≠ second.field)
    (before after : List Item) :
    Rearranged (before ++ first :: second :: after) (before ++ second :: first :: after) := by
  intro field
  simp only [List.filter_append, List.filter_cons]
  by_cases hfirst : first.field = field
  · have hsecond : second.field ≠ field := fun h => hfields (hfirst.trans h.symm)
    simp only [hfirst, hsecond, decide_true, decide_false, if_true, Bool.false_eq_true, if_false]
  · simp only [hfirst, decide_false, Bool.false_eq_true, if_false]

theorem filterMap_eq_of_rearranged {α : Type} {f : Item → Option α} (field : Field)
    (hf : ∀ item, item.field ≠ field → f item = none) (h : Rearranged items items') :
    items.filterMap f = items'.filterMap f := by
  have hfield : ∀ items : List Item,
      (items.filter (·.field = field)).filterMap f = items.filterMap f := by
    intro items
    rw [List.filterMap_filter]
    refine List.filterMap_congr fun item _ => ?_
    by_cases hitem : item.field = field
    · simp [hitem]
    · simp [hitem, hf item hitem]
  rw [← hfield items, h field, hfield items']

/-- What is asked of a field depends on the items of that field only. -/
theorem asked_eq_of_rearranged (h : Rearranged items items') : asked items = asked items' := by
  have hlanguage := filterMap_eq_of_rearranged .language (f := Item.language?)
    (fun item hne => by cases item <;> simp_all [Item.field, Item.language?]) h
  have htheme := filterMap_eq_of_rearranged .theme (f := Item.theme?)
    (fun item hne => by cases item <;> simp_all [Item.field, Item.theme?]) h
  have hwidth := filterMap_eq_of_rearranged .width (f := Item.width?)
    (fun item hne => by cases item <;> simp_all [Item.field, Item.width?]) h
  have hsource := filterMap_eq_of_rearranged .source (f := Item.source?)
    (fun item hne => by cases item <;> simp_all [Item.field, Item.source?]) h
  simp only [asked, hlanguage, htheme, hwidth, hsource]

/-- Arguments that items spell ask for what the items ask for, and no others can be read.  Reading
others fails with the message about the first offence, whatever comes after it.  Items of different
fields can be moved past each other. -/
theorem options_are_read_off_items :
    (∀ args o, Options.read args = .ok o ↔ ∃ items, Spelled items args ∧ o = asked items) ∧
    (∀ args m, (∃ failure, Options.read args = .error failure ∧ failure.message = m) ↔
      ∃ items before offence after, Spelled items before ∧ Offends offence after m ∧
        args = before ++ offence ++ after) ∧
    (∀ items items' args args', Spelled items args → Spelled items' args' →
      Rearranged items items' → Options.read args = Options.read args') := by
  refine ⟨fun args o => ⟨fun h => ?_, ?_⟩, fun args m => ⟨?_, ?_⟩, ?_⟩
  · rcases covered args with ⟨items, hitems⟩ | ⟨_, _, _, _, _, hbefore, hoffence, rfl⟩
    · rw [read_spelled hitems] at h
      exact ⟨items, hitems, (Except.ok.inj h).symm⟩
    · obtain ⟨failure, hread, -⟩ := read_offence hbefore hoffence
      rw [hread] at h
      cases h
  · rintro ⟨items, hitems, rfl⟩
    exact read_spelled hitems
  · rintro ⟨failure, h, rfl⟩
    rcases covered args with ⟨items, hitems⟩ | ⟨_, _, _, _, _, hbefore, hoffence, rfl⟩
    · rw [read_spelled hitems] at h
      cases h
    · obtain ⟨failure', hread, hmessage⟩ := read_offence hbefore hoffence
      rw [hread] at h
      cases h
      rw [hmessage]
      exact ⟨_, _, _, _, hbefore, hoffence, rfl⟩
  · rintro ⟨items, before, offence, after, hbefore, hoffence, rfl⟩
    exact read_offence hbefore hoffence
  · intro items items' args args' h h' hmoved
    rw [read_spelled h, read_spelled h', asked_eq_of_rearranged hmoved]

/-- A width goes with its option, past a language; a dash takes a file back; and the value of a
width option is looked for even in another one. -/
theorem width_moves_with_its_option :
    Options.read ["-w".toList, "8".toList, "--json".toList, "a.sql".toList, "-".toList] =
        .ok { language := some .json, wrapWidth := some 8 } ∧
      Options.read ["--json".toList, "-w".toList, "8".toList, "a.sql".toList, "-".toList] =
        .ok { language := some .json, wrapWidth := some 8 } ∧
      ∃ failure, Options.read ["--dark".toList, "-w".toList, "-w".toList, "5".toList] =
        .error failure ∧ failure.message = "invalid width: -w".toList := by
  obtain ⟨hasked, hoffends, hmoved⟩ := options_are_read_off_items
  have hrest : Spelled [.file "a.sql".toList, .standardInput]
      (["a.sql".toList] ++ (["-".toList] ++ [])) :=
    .cons (.file (by decide)) (.cons .standardInput .nil)
  have hlanguage : Item.Spelling (.language .json) ["--json".toList] := .flag (by simp [flags])
  have hwidth : Item.Spelling (.width 8) ["-w".toList, "8".toList] :=
    .width (by simp [widthOptions]) rfl
  have hfirst := Spelled.cons hwidth (.cons hlanguage hrest)
  have hsecond := Spelled.cons hlanguage (.cons hwidth hrest)
  have hread := (hasked _ _).mpr ⟨_, hfirst, rfl⟩
  refine ⟨hread, ?_, ?_⟩
  · exact (hmoved _ _ _ _ hsecond hfirst (rearranged_swap (by decide) [] _)).trans hread
  · have hdark : Spelled [.theme .dark] ["--dark".toList] := .cons (.flag (by simp [flags])) .nil
    have hvalue : Offends ["-w".toList, "-w".toList] ["5".toList] "invalid width: -w".toList :=
      .invalid (by simp [widthOptions]) rfl _
    exact (hoffends _ _).mpr ⟨_, _, _, _, hdark, hvalue, rfl⟩

end CommandLine
end QueryView
