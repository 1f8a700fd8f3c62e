import LoadRig.Net.Ipv4
/-!
# Addresses of eight groups

An address of the sixth version of the internet protocol has eight groups of sixteen bits, written
in hexadecimal with colons between them. One run of zero groups may be left out, which leaves two
colons in a row; in the printed form it is the longest run, the first of equals, unless it is a lone
zero. The last two groups may also be written as an address of four numbers.

## Main definitions

* `LoadRig.Net.Ipv6` — an address; `LoadRig.Net.Ipv6.text` is its text.
* `LoadRig.Net.Ipv6.parse?` — reads a text.
* `LoadRig.Net.Ipv6.zeroRun?` — the run that is left out.
-/

namespace LoadRig.Net

open LoadRig.Text

/-- An address: its groups in writing order. -/
structure Ipv6 where
  groups : List (Fin 65536)
  length_groups : groups.length = 8
deriving DecidableEq, Repr

namespace Ipv6

/-! ### Writing -/

/-- How many zero groups stand together from a place on. -/
def zerosFrom (gs : List (Fin 65536)) (i : Nat) : Nat := ((gs.drop i).takeWhile (· == 0)).length

/-- The place and the length of the longest run of zero groups, if it has more than one. -/
def zeroRun? (gs : List (Fin 65536)) : Option (Nat × Nat) :=
  let best := (List.range gs.length).foldl
    (fun best i => if best.2 < zerosFrom gs i then (i, zerosFrom gs i) else best) (0, 1)
  if 1 < best.2 then some best else none

/-- Groups with colons between them. -/
def joinGroups (gs : List (Fin 65536)) : List Char := joined ':' (gs.map fun g => hexDigits g.val)

/-- The text of an address. -/
def text (a : Ipv6) : List Char :=
  match zeroRun? a.groups with
  | none => joinGroups a.groups
  | some (i, n) => joinGroups (a.groups.take i) ++ ':' :: ':' :: joinGroups (a.groups.drop (i + n))

/-- The address of four numbers that an address stands for: ten zero bytes and two full ones come
before it. -/
def mapped? (a : Ipv6) : Option Ipv4 :=
  match a.groups with
  | [0, 0, 0, 0, 0, 65535, g, h] => some (Ipv4.ofNat (g.val * 65536 + h.val))
  | _ => none

/-! ### Reading -/

/-- Reads a group of one to four digits. -/
def group? (cs : List Char) : Option (Fin 65536) := do
  if cs.isEmpty || 4 < cs.length then none
  let n ← cs.foldlM (fun n c => (hexValue? c).map (16 * n + ·)) 0
  return Fin.ofNat 65536 n

/-- Reads groups with colons between them, the last two perhaps as an address of four numbers. -/
def groups? (cs : List Char) : Option (List (Fin 65536)) :=
  let parts := fields (· == ':') cs
  let last := parts.getLast?.getD []
  if last.contains '.' then do
    let before ← parts.dropLast.mapM group?
    let q ← Ipv4.parse? last
    return before ++ [Fin.ofNat 65536 (q.first.val * 256 + q.second.val),
      Fin.ofNat 65536 (q.third.val * 256 + q.fourth.val)]
  else parts.mapM group?

/-- Cuts a text at its first two colons in a row. -/
def cut? : List Char → Option (List Char × List Char)
  | ':' :: ':' :: rest => some ([], rest)
  | c :: rest => (cut? rest).map fun (before, behind) => (c :: before, behind)
  | [] => none

/-- The address with some groups, if they are eight. -/
def ofGroups? (gs : List (Fin 65536)) : Option Ipv6 :=
  if h : gs.length = 8 then some ⟨gs, h⟩ else none

/-- Reads an address. The run that is left out has at least one group. -/
def parse? (cs : List Char) : Option Ipv6 :=
  match cut? cs with
  | none => (groups? cs).bind ofGroups?
  | some (before, behind) => do
    let left ← if before.isEmpty then some [] else ((fields (· == ':') before).mapM group?)
    let right ← if behind.isEmpty then some [] else groups? behind
    if 7 < left.length + right.length then none
    ofGroups? (left ++ List.replicate (8 - (left.length + right.length)) 0 ++ right)

end Ipv6

end LoadRig.Net
