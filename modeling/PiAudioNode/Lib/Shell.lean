import Mathlib

/-! The shell's command language as far as one simple command goes: words with single
quotes, redirections of output, and a command in the background. Nothing else is read:
other quotes, expansions, patterns, comments, lists and compound commands. -/
namespace PiAudioNode.Lib.Shell

/-- Characters that have a meaning, in some place at least, unless they are quoted. -/
def special : List Char :=
  ['|', '&', ';', '<', '>', '(', ')', '$', '\x60', '\\', '"', '\'', ' ', '\t', '\n', '*', '?', '[', '#', '~', '=', '%']

inductive Token where
  | word (cs : List Char)
  | ioNumber (n : Nat)
  | great
  | greatAnd
  | amp
  deriving DecidableEq

/-- Where the reader is: between words, in a word, between single quotes, or after the
first character of an operator. -/
inductive Place where
  | gap
  | word (cs : List Char) (bQuoted : Bool)
  | quoted (cs : List Char)
  | great
  | amp
  deriving DecidableEq

/-- The place after a character that starts something. -/
def start (c : Char) : Option Place :=
  if c = ' ' ∨ c = '\t' then some .gap
  else if c = '\'' then some (.quoted [])
  else if c = '>' then some .great
  else if c = '&' then some .amp
  else if c ∈ special then none
  else some (.word [c] false)

/-- A word as it ends before `c`: digits before a redirection are its descriptor. -/
def ended (cs : List Char) (bQuoted : Bool) (c : Char) : Token :=
  if c = '>' ∧ ¬ bQuoted ∧ cs.all Char.isDigit then .ioNumber (Nat.ofDigitChars 10 cs 0) else .word cs

/-- One character: the tokens it ends, and the place after it. -/
def step (place : Place) (c : Char) : Option (List Token × Place) :=
  match place with
  | .gap => (start c).map ([], ·)
  | .word cs bQuoted =>
    if c = '\'' then some ([], .quoted cs)
    else if c ∈ special then (start c).map ([ended cs bQuoted c], ·)
    else some ([], .word (cs ++ [c]) bQuoted)
  | .quoted cs => if c = '\'' then some ([], .word cs true) else some ([], .quoted (cs ++ [c]))
  | .great =>
    if c = '&' then some ([.greatAnd], .gap)
    else if c = '>' ∨ c = '|' then none
    else (start c).map ([.great], ·)
  | .amp => if c = '&' then none else (start c).map ([.amp], ·)

/-- The tokens at the end of the text. A quote that is still open is an error. -/
def finish : Place → Option (List Token)
  | .gap => some []
  | .word cs _ => some [.word cs]
  | .quoted _ => none
  | .great => some [.great]
  | .amp => some [.amp]

def walk : Place → List Char → Option (List Token × Place)
  | place, [] => some ([], place)
  | place, c :: cs =>
    (step place c).bind fun x => (walk x.2 cs).map fun y => (x.1 ++ y.1, y.2)

def tokens (cs : List Char) : Option (List Token) :=
  (walk .gap cs).bind fun x => (finish x.2).map (x.1 ++ ·)

/-- Where the output of a descriptor goes: to a file, or where another one goes. -/
inductive Redirect where
  | file (n : Nat) (sPath : List Char)
  | copy (n : Nat) (sTarget : List Char)
  deriving DecidableEq

structure Command where
  words : List (List Char) := []
  redirects : List Redirect := []
  bBackground : Bool := false
  deriving DecidableEq

def Command.addWord (cs : List Char) (x : Command) : Command := { x with words := cs :: x.words }

def Command.addRedirect (r : Redirect) (x : Command) : Command := { x with redirects := r :: x.redirects }

def parse : List Token → Option Command
  | [] => some {}
  | [.amp] => some { bBackground := true }
  | .word cs :: ts => (parse ts).map (Command.addWord cs)
  | .great :: .word cs :: ts => (parse ts).map (Command.addRedirect (.file 1 cs))
  | .greatAnd :: .word cs :: ts => (parse ts).map (Command.addRedirect (.copy 1 cs))
  | .ioNumber n :: .great :: .word cs :: ts => (parse ts).map (Command.addRedirect (.file n cs))
  | .ioNumber n :: .greatAnd :: .word cs :: ts => (parse ts).map (Command.addRedirect (.copy n cs))
  | _ => none

def reserved : List String :=
  ["!", "\x7b", "\x7d", "case", "do", "done", "elif", "else", "esac", "fi", "for", "if", "in", "then", "until", "while"]

/-- The text is one simple command, with a name that is no reserved word. -/
def read (cs : List Char) : Option Command :=
  ((tokens cs).bind parse).filter fun x => x.words.head?.any fun sName => String.ofList sName ∉ reserved

/-- From one place to another, over a part of the text. -/
def Walks (place : Place) (cs : List Char) (ts : List Token) (place' : Place) : Prop :=
  walk place cs = some (ts, place')

section Walks
variable {place place' place'' : Place} {cs ds : List Char} {ts us : List Token} {w : List Char}

theorem Walks.append (h : Walks place cs ts place') : Walks place' ds us place'' →
    Walks place (cs ++ ds) (ts ++ us) place'' := by
  intro hds
  induction cs generalizing place ts with
  | nil =>
    obtain ⟨rfl, rfl⟩ := Prod.mk.inj (Option.some.inj h)
    exact hds
  | cons c cs ih =>
    rw [Walks, walk] at h
    obtain ⟨x, hstep, hrest⟩ := Option.bind_eq_some_iff.mp h
    obtain ⟨y, hwalk, heq⟩ := Option.map_eq_some_iff.mp hrest
    obtain ⟨rfl, rfl⟩ := Prod.mk.inj heq
    rw [Walks, List.cons_append, walk, hstep, Option.bind_some, ih hwalk, Option.map_some, List.append_assoc]

/-- Between quotes every character but the quote stands for itself. -/
theorem walks_quoted (h : '\'' ∉ cs) (w : List Char) : Walks (.quoted w) cs [] (.quoted (w ++ cs)) := by
  induction cs generalizing w with
  | nil => rw [List.append_nil]; rfl
  | cons c cs ih =>
    have hc : c ≠ '\'' := fun heq => h (heq ▸ List.mem_cons_self)
    have hrest := ih (fun hmem => h (List.mem_cons_of_mem _ hmem)) (w ++ [c])
    rw [Walks, walk, step, if_neg hc, Option.bind_some, hrest, List.append_assoc]
    rfl

/-- A text that ends between quotes is not read. -/
theorem read_of_quoted (h : Walks .gap cs ts (.quoted w)) : read cs = none := by
  rw [read, tokens, h]
  rfl

theorem read_of_walks {x : Command} (h : Walks .gap cs ts place) (hparse : ((finish place).map (ts ++ ·)).bind parse = some x)
    (hname : x.words.head?.any fun sName => String.ofList sName ∉ reserved) : read cs = some x := by
  rw [read, tokens, h, Option.bind_some, hparse, Option.filter_some, if_pos hname]

end Walks

end PiAudioNode.Lib.Shell
