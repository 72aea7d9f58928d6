import Mathlib.Data.Nat.Digits.Lemmas

/-!
# Formatted output

The formatters are written over any sink, so that what they would produce with unlimited room is
the same function.
-/

namespace HnxKernel

open Function List

structure Directive where
  (left zero plus space : Bool)
  (width longness : Nat)

/-- The flags `+` and space and the modifier `z` are known to the kernel only. -/
def isFlag (kernel : Bool) (c : Char) : Bool := c = '-' || c = '0' || kernel && (c = '+' || c = ' ')

/-- Flags, width and length of a directive, and the format behind them. -/
def scanDirective (kernel : Bool) (p : List Char) : Directive × List Char :=
  let flags := p.takeWhile (isFlag kernel)
  let p := p.dropWhile (isFlag kernel)
  let digits := p.takeWhile Char.isDigit
  let p := p.dropWhile Char.isDigit
  let longs := p.takeWhile (· = 'l')
  let p := p.dropWhile (· = 'l')
  let sized := kernel && p.head? = some 'z'
  ({ left := '-' ∈ flags
     zero := '0' ∈ flags
     plus := '+' ∈ flags
     space := ' ' ∈ flags
     width := digits.foldl (fun width c => width * 10 + (c.toNat - 48)) 0
     longness := if sized then 3 else longs.length }, if sized then p.tail else p)

def digitChar (upper : Bool) (d : Nat) : Char :=
  (if upper then "0123456789ABCDEF" else "0123456789abcdef").toList.getD d '0'

/-- The digits in `tmp`, of which there is room for `n`. -/
def digitLoop (base : Nat) (upper : Bool) : Nat → Nat → List Char
  | 0, _ => []
  | n + 1, v =>
    digitChar upper (v % base) :: if v / base = 0 then [] else digitLoop base upper n (v / base)

def kfmtU64 (size v base : Nat) (upper : Bool) : List Char :=
  let base := if base < 2 ∨ 16 < base then 10 else base
  (digitLoop base upper 32 v).reverse.take (size - 1)

def signedArg (longness : Nat) (word : UInt64) : Int :=
  if 0 < longness then word.toInt64.toInt else word.toUInt32.toInt32.toInt

def unsignedArg (longness : Nat) (word : UInt64) : Nat :=
  if 0 < longness then word.toNat else word.toUInt32.toNat

section Sink

variable {S : Type} (putc : S → Char → S) (strings : UInt64 → List Char)
  (conversion : Directive → Char → List UInt64 → S → S × List UInt64)

def puts (text : List Char) (s : S) : S := text.foldl putc s

def emitNumber (value : Nat) (negative : Bool) (base : Nat) (upper : Bool) (d : Directive)
    (s : S) : S :=
  let digits := kfmtU64 32 value base upper
  let sign := if negative then ['-'] else if d.plus then ['+'] else if d.space then [' '] else []
  let pad := d.width - (digits.length + sign.length)
  let s := if !d.left && !d.zero then puts putc (replicate pad ' ') s else s
  let s := puts putc sign s
  let s := if !d.left && d.zero then puts putc (replicate pad '0') s else s
  let s := puts putc digits s
  if d.left then puts putc (replicate pad ' ') s else s

/-- Characters and strings are padded with blanks only. -/
def emitText (text : List Char) (d : Directive) (s : S) : S :=
  let pad := replicate (d.width - text.length) ' '
  let s := if d.left then s else puts putc pad s
  let s := puts putc text s
  if d.left then puts putc pad s else s

def stringArg (word : UInt64) : List Char :=
  if word = 0 then "(null)".toList else strings word

def charArg (word : UInt64) : Char := .ofNat word.toUInt8.toNat

/-- The conversion `conv` with the first of the arguments, and the arguments behind it. -/
def convert (d : Directive) (conv : Char) (args : List UInt64) (s : S) :
    S × List UInt64 :=
  let word := args.headD 0
  let signless := { d with plus := false, space := false }
  match conv with
  | 'd' | 'i' =>
    let v := signedArg d.longness word
    let mag := if v < 0 then (-(v + 1)).toNat + 1 else v.toNat
    (emitNumber putc mag (v < 0) 10 false d s, args.tail)
  | 'u' => (emitNumber putc (unsignedArg d.longness word) false 10 false signless s, args.tail)
  | 'x' | 'X' =>
    (emitNumber putc (unsignedArg d.longness word) false 16 (conv = 'X') signless s, args.tail)
  | 'p' => (emitNumber putc word.toNat false 16 false signless (puts putc ['0', 'x'] s), args.tail)
  | 'c' => (emitText putc [charArg word] d s, args.tail)
  | 's' => (emitText putc (stringArg strings word) d s, args.tail)
  | '%' => (putc s '%', args)
  | _ => (putc (putc s '%') conv, args)

lemma scanDirective_length (kernel : Bool) (p : List Char) :
    (scanDirective kernel p).2.length ≤ p.length := by
  have drop (f : Char → Bool) (l : List Char) : (l.dropWhile f).length ≤ l.length :=
    (dropWhile_suffix f).length_le
  have scanned := (drop Char.isDigit _).trans (drop (isFlag kernel) p)
  rw [scanDirective]
  dsimp only
  refine le_trans ?_ ((drop (· = 'l') _).trans scanned)
  split
  · simp
  · rfl

/-- The loop over a format.  The kernel takes the terminator as a conversion when a directive
is cut off behind its first character, and goes on behind it: `none`. -/
def format (kernel : Bool) : List Char → List UInt64 → S → Option S
  | [], _, s => some s
  | c :: p, args, s =>
    if c ≠ '%' then
      format kernel p args (putc s c)
    else
      match h : scanDirective kernel p with
      | (_, []) => if kernel ∧ p ≠ [] then none else some s
      | (d, conv :: rest) =>
        have := h ▸ scanDirective_length kernel p
        format kernel rest (conversion d conv args s).2 (conversion d conv args s).1
termination_by p => p.length
decreasing_by
  · simp
  · simp_all
    omega

lemma format_percent (kernel : Bool) (p : List Char) (args : List UInt64) (s : S) :
    format putc conversion kernel ('%' :: p) args s = match scanDirective kernel p with
      | (_, []) => if kernel ∧ p ≠ [] then none else some s
      | (d, conv :: rest) => format putc conversion kernel rest (conversion d conv args s).2
          (conversion d conv args s).1 := by
  rw [format, if_neg (by simp)]
  split <;> simp [*]

def kformat : List Char → List UInt64 → S → Option S := format putc (convert putc strings) true

section Simulation

variable {T : Type} {putc' : T → Char → T} {f : T → S}
  {putc} (simulates : ∀ s c, putc (f s) c = f (putc' s c))

include simulates

lemma puts_simulates (text : List Char) (s : T) :
    puts putc text (f s) = f (puts putc' text s) :=
  foldl_hom f simulates

lemma emitNumber_simulates (value : Nat) (negative : Bool) (base : Nat) (upper : Bool)
    (d : Directive) (s : T) : emitNumber putc value negative base upper d (f s) =
      f (emitNumber putc' value negative base upper d s) := by
  simp only [emitNumber, puts_simulates simulates, ← apply_ite f]

lemma emitText_simulates (text : List Char) (d : Directive) (s : T) :
    emitText putc text d (f s) = f (emitText putc' text d s) := by
  simp only [emitText, puts_simulates simulates, ← apply_ite f]

lemma convert_simulates (d : Directive) (conv : Char) (args : List UInt64) (s : T) :
    convert putc strings d conv args (f s) =
      Prod.map f id (convert putc' strings d conv args s) := by
  rw [convert.eq_def, convert.eq_def]
  split <;> simp only [puts_simulates simulates, emitNumber_simulates simulates,
    emitText_simulates simulates, simulates, Prod.map, id]

lemma kformat_simulates (fmt : List Char) (args : List UInt64) (s : T) :
    kformat putc strings fmt args (f s) = (kformat putc' strings fmt args s).map f := by
  rw [kformat, kformat]
  fun_induction format putc' (convert putc' strings) true fmt args s with
  | case1 => simp [format]
  | case2 c p args s plain ih => rw [format, if_pos plain, simulates, ih]
  | case3 c p args s percent d scan cut =>
    cases not_not.mp percent
    rw [format_percent, scan]
    exact if_pos cut
  | case4 c p args s percent d scan cut =>
    cases not_not.mp percent
    rw [format_percent, scan]
    exact if_neg cut
  | case5 c p args s percent d conv rest scan _ ih =>
    cases not_not.mp percent
    rw [format_percent, scan]
    dsimp only
    rw [convert_simulates strings simulates]
    exact ih

end Simulation

/-- Every directive has its conversion; a format may end in a lone `%`. -/
inductive Complete : List Char → Prop
  | nil : Complete []
  | literal {c p} : c ≠ '%' → Complete p → Complete (c :: p)
  | lone : Complete ['%']
  | directive {p d conv rest} : scanDirective true p = (d, conv :: rest) → Complete rest →
      Complete ('%' :: p)

lemma isSome_format_iff (fmt : List Char) (args : List UInt64) (s : S) :
    (format putc conversion true fmt args s).isSome ↔ Complete fmt := by
  fun_induction format putc conversion true fmt args s with
  | case1 => simp [Complete.nil]
  | case2 c p args s plain ih =>
    rw [ih]
    constructor
    · exact .literal plain
    intro complete
    cases complete with
    | literal _ rest => exact rest
    | lone => exact .nil
    | directive => contradiction
  | case3 c p args s percent d scan cut =>
    simp only [Option.isSome_none, Bool.false_eq_true, false_iff]
    intro complete
    cases complete with
    | literal plain => exact percent plain
    | lone => exact cut.2 rfl
    | directive scan' => simp_all
  | case4 c p args s percent d scan cut =>
    cases not_not.mp percent
    obtain rfl : p = [] := by simpa using cut
    simp [Complete.lone]
  | case5 c p args s percent d conv rest scan _ ih =>
    cases not_not.mp percent
    rw [ih]
    constructor
    · exact .directive scan
    intro complete
    cases complete with
    | literal plain => contradiction
    | lone => cases scan
    | directive scan' tail =>
      cases scan.symm.trans scan'
      exact tail

/-- The loop stops at the terminator, exactly if no directive is cut off. -/
theorem kformat_isSome_iff (fmt : List Char) (args : List UInt64) (s : S) :
    (kformat putc strings fmt args s).isSome ↔ Complete fmt :=
  isSome_format_iff ..

/-- The terminator is taken for a conversion. -/
theorem kformat_cutOff : kformat (fun s c => s ++ [c]) (fun _ => []) ['%', '5'] [] [] = none := by
  decide +kernel

end Sink

/-- `size` counts the terminator; `len` may exceed it. -/
structure Sink where
  buf : Nat → Char
  (size len : Nat)

def sinkPutc (s : Sink) (c : Char) : Sink :=
  { s with
    buf := if s.len + 1 < s.size then update s.buf s.len c else s.buf
    len := s.len + 1 }

def kvsnprintf (strings : UInt64 → List Char) (buf : Nat → Char) (size : Nat) (fmt : List Char)
    (args : List UInt64) : Option ((Nat → Char) × Int) :=
  (kformat sinkPutc strings fmt args ⟨buf, size, 0⟩).map fun s =>
    (if 0 < s.size then update s.buf (if s.len < s.size then s.len else s.size - 1) '\x00'
      else s.buf, Int.bmod s.len (2 ^ 32))

lemma getD_concat (l : List Char) (c : Char) (buf : Nat → Char) :
    (fun i => (l ++ [c]).getD i (buf i)) = update (fun i => l.getD i (buf i)) l.length c := by
  ext i
  simp only [getD_eq_getElem?_getD, getElem?_append, update_apply]
  grind

lemma puts_sinkPutc (L : List Char) (buf : Nat → Char) (size : Nat) :
    puts sinkPutc L ⟨buf, size, 0⟩ =
      ⟨fun i => (L.take (size - 1)).getD i (buf i), size, L.length⟩ := by
  induction L using reverseRecOn with
  | nil => simp [puts]
  | append_singleton L c ih =>
    rw [puts, foldl_append, show foldl sinkPutc _ L = _ from ih]
    simp only [foldl_cons, foldl_nil, sinkPutc, length_append, length_singleton, Sink.mk.injEq,
      and_true]
    split_ifs with fits
    · rw [take_of_length_le (by omega), take_of_length_le (by simp; omega), getD_concat]
    · rw [take_append_of_le_length (by omega)]

lemma kformat_sinkPutc (strings : UInt64 → List Char) (fmt : List Char) (args : List UInt64)
    (buf : Nat → Char) (size : Nat) : kformat sinkPutc strings fmt args ⟨buf, size, 0⟩ =
      (kformat (fun s c => s ++ [c]) strings fmt args []).map fun L =>
        ⟨fun i => (L.take (size - 1)).getD i (buf i), size, L.length⟩ := by
  have simulates (L : List Char) (c : Char) : sinkPutc (puts sinkPutc L ⟨buf, size, 0⟩) c =
      puts sinkPutc (L ++ [c]) ⟨buf, size, 0⟩ := by simp [puts]
  exact (kformat_simulates strings simulates fmt args []).trans (by simp only [puts_sinkPutc])

/-- What is stored is a beginning of what unlimited room would get, and its length is returned. -/
theorem kvsnprintf_eq_take {fmt : List Char} (complete : Complete fmt)
    (strings : UInt64 → List Char) (args : List UInt64) (buf : Nat → Char) (size : Nat) :
    ∃ L, kformat (fun s c => s ++ [c]) strings fmt args [] = some L ∧ (L.length < 2 ^ 31 →
      kvsnprintf strings buf size fmt args = some (if size = 0 then buf else
        fun i => (L.take (size - 1) ++ ['\x00']).getD i (buf i), (L.length : Int))) := by
  obtain ⟨L, produced⟩ : ∃ L, kformat (fun s c => s ++ [c]) strings fmt args [] = some L :=
    Option.isSome_iff_exists.mp ((isSome_format_iff ..).mpr complete)
  refine ⟨L, produced, fun short => ?_⟩
  have returned : Int.bmod L.length (2 ^ 32) = L.length := Int.bmod_eq_of_le (by omega) (by omega)
  rw [kvsnprintf, kformat_sinkPutc, produced]
  simp only [Option.map_some, returned, Option.some.injEq, Prod.mk.injEq, and_true]
  rcases Nat.eq_zero_or_pos size with rfl | pos
  · simp
  rw [if_pos pos, if_neg pos.ne', getD_concat, length_take]
  split_ifs
  · rw [min_eq_right (by omega)]
  · rw [min_eq_left (by omega)]

theorem kvsnprintf_eq_take_number : ∃ L, kformat (fun s c => s ++ [c]) (fun _ => [])
    ['a', '%', 'd'] [7] [] = some L ∧ (L.length < 2 ^ 31 → kvsnprintf (fun _ => []) (fun _ => 'x')
      2 ['a', '%', 'd'] [7] = some (if 2 = 0 then fun _ => 'x' else
        fun i => (L.take 1 ++ ['\x00']).getD i 'x', (L.length : Int))) :=
  kvsnprintf_eq_take (.literal (by decide) (.directive rfl .nil)) ..

end HnxKernel
