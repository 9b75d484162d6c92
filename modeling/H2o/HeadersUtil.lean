/-
The commands `header.unset` and `header.unsetunless`
(`lib/handler/headers_util.c`, `lib/handler/configurator/headers_util.c`).

An entry of the configuration is a list of names, and `add_cmd` puts all of
them into one command. `remove_header_unless` compares with each argument of
the command, but `remove_header` with the first one only. Both move the headers
that stay to the front of the array before they set its size.
-/
import H2o.StringUtil

namespace H2o.HeadersUtil

open List

-- ==== the configurator

inductive Cmd where
  | unset
  | unsetunless
deriving DecidableEq

/-- `h2o_headers_command_t`; the arguments of these commands have no value. -/
structure Command where
  cmd : Cmd
  args : List Name
deriving DecidableEq

def isWs (ch : UInt8) : Bool := ch = 0x20 ∨ ch = 0x09 ∨ ch = 0x0d ∨ ch = 0x0a

/-- `h2o_str_stripws`. -/
def strStripws (s : Bytes) : Bytes :=
  ((s.dropWhile isWs).reverse.dropWhile isWs).reverse

/-- `extract_name`. -/
def extractName (src : Bytes) : Option Name :=
  if strStripws src = [] then none
    else some (.intern ((strStripws src).map toLower))

/-- `h2o_headers_is_prohibited_name`: `connection`, `content-length`,
`transfer-encoding`, `date` and `server`. -/
def isProhibitedName (t : Token) : Bool :=
  [.connection, .contentLength, .transferEncoding, .date, .server].contains t

/-- `add_cmd`, for a command with a list. -/
def addCmd (cmd : Cmd) (args : List Name) : Option Command :=
  if args.any fun name => match name with
    | .token t => isProhibitedName t
    | .buf _ => false
  then none
  else some ⟨cmd, args⟩

/-- `on_config_unset_core`. -/
def onConfigUnsetCore (cmd : Cmd) (node : List Bytes) : Option Command :=
  (node.mapM extractName).bind (addCmd cmd)

-- ==== rewriting

/-- The comparison of a name with an argument. -/
def isArg (name arg : Name) : Bool :=
  if arg.isToken then name = arg else name.bytes = arg.bytes

def isInList (name : Name) (cmd : Command) : Bool := cmd.args.any (isArg name)

/-- The loop over the headers, with `n` of them left. -/
def removeLoop (skip : Header → Bool) :
    (n src dst : Nat) → (entries : List Header) → List Header
  | 0, _, dst, entries => entries.take dst
  | n + 1, src, dst, entries =>
    match entries[src]? with
    | none => entries.take dst
    | some h =>
      if skip h then removeLoop skip n (src + 1) dst entries
      else removeLoop skip n (src + 1) (dst + 1) (if dst ≠
        src then entries.set dst h else entries)

def removeHeaderUnless (headers : List Header) (cmd : Command) : List Header :=
  removeLoop (fun h => !isInList h.name cmd) headers.length 0 0 headers

/-- `remove_header`. The first argument is read for each header, also where
there is none. -/
def removeHeader (headers : List Header) (cmd : Command) :
    Option (List Header) :=
  match cmd.args with
  | [] => if headers = [] then some [] else none
  | arg :: _ =>
    some (removeLoop (fun h => isArg h.name arg) headers.length 0 0 headers)

/-- `h2o_rewrite_headers`. -/
def rewriteHeaders (headers : List Header) (cmd : Command) :
    Option (List Header) :=
  match cmd.cmd with
  | .unset => removeHeader headers cmd
  | .unsetunless => some (removeHeaderUnless headers cmd)

-- ==== what they remove

/-- The name that an entry of the configuration stands for. -/
def configured (src : Bytes) : Bytes := (strStripws src).map toLower

/-- Is a field to be kept? -/
def Cmd.keeps (node : List Bytes) (h : Header) : Cmd → Bool
  | .unset => h.name.bytes ∉ node.map configured
  | .unsetunless => h.name.bytes ∈ node.map configured

theorem removeLoop_eq_filter (skip : Header → Bool) {n src dst : Nat}
    {entries : List Header} (hlen : src + n = entries.length)
    (hdst : dst ≤ src) :
    removeLoop skip n src dst entries =
      entries.take dst ++ (entries.drop src).filter fun h => !skip h := by
  induction n generalizing src dst entries with
  | zero =>
    rw [removeLoop, drop_of_length_le (by omega), filter_nil, append_nil]
  | succ n ih =>
    have hsrc : src < entries.length := by omega
    -- the entry may be moved even if it is in its place
    have hset : (if dst ≠ src then entries.set dst entries[src] else entries) =
        entries.set dst entries[src] := by
      split
      next => rfl
      next heq =>
        rw [not_not] at heq
        subst heq
        exact (set_getElem_self hsrc).symm
    rw [removeLoop, getElem?_eq_getElem hsrc, drop_eq_getElem_cons hsrc]
    simp only [hset]
    by_cases hskip : skip entries[src] = true
    · rw [if_pos hskip, ih (by omega) (by omega),
        filter_cons_of_neg (by simpa using hskip)]
    · rw [if_neg hskip, ih (by rw [length_set]; omega) (by omega),
        take_add_one,
        getElem?_set_self (by omega), take_set_of_le (Nat.le_refl dst),
          drop_set_of_lt (by omega),
        filter_cons_of_pos (by simpa using hskip), append_assoc]
      rfl

/-- The comparison finds names equal when they are. -/
theorem isArg_intern {name : Name} (h : name = .intern name.bytes)
    (b : Bytes) :
    isArg name (.intern b) = decide (name.bytes = b) := by
  unfold isArg
  split
  · rw [decide_eq_decide]
    refine ⟨fun heq => by rw [heq, Name.bytes_intern], ?_⟩
    rintro rfl
    exact h
  · rw [Name.bytes_intern]

theorem args_of_onConfig {cmd : Cmd} {node : List Bytes} {c : Command}
    (hc : onConfigUnsetCore cmd node = some c) :
    c = ⟨cmd, node.map fun src => .intern (configured src)⟩ := by
  obtain ⟨args, hargs, hadd⟩ := Option.bind_eq_some_iff.1 hc
  have heq : args = node.map fun src => .intern (configured src) := by
    clear hc hadd
    induction node generalizing args with
    | nil => exact (Option.some.inj hargs).symm
    | cons src node ih =>
      rw [mapM_cons] at hargs
      obtain ⟨name, hname, hargs⟩ := Option.bind_eq_some_iff.1 hargs
      obtain ⟨names, hnames, hargs⟩ := Option.bind_eq_some_iff.1 hargs
      cases hargs
      unfold extractName at hname
      split at hname
      · cases hname
      · rw [map_cons, ← ih names hnames, ← Option.some.inj hname]
        rfl
  unfold addCmd at hadd
  split at hadd
  · cases hadd
  · rw [← Option.some.inj hadd, heq]

/-- Where a field has a configured name it is the first one; there is a first
one if there is a field. -/
def FirstNames (node : List Bytes) (headers : List Header) : Prop :=
  ∀ h ∈ headers, ∃ src ∈ node.head?,
    h.name.bytes ∈ node.map configured → h.name.bytes = configured src

/-- Two filters that leave the same agree on each element. -/
theorem filter_eq_filter_iff {α : Type} {p q : α → Bool} {l : List α} :
    l.filter p = l.filter q ↔ ∀ a ∈ l, p a = q a := by
  refine ⟨fun h a ha => ?_, filter_congr⟩
  have hmem : a ∈ l.filter p ↔ a ∈ l.filter q := by rw [h]
  simp only [mem_filter, ha, true_and] at hmem
  exact Bool.eq_iff_iff.2 hmem

/-- The loop leaves the fields that it does not skip, in their order. -/
theorem removeLoop_all (skip : Header → Bool) (headers : List Header) :
    removeLoop skip headers.length 0 0 headers =
      headers.filter fun h => !skip h := by
  rw [removeLoop_eq_filter skip (Nat.zero_add _) (Nat.le_refl 0)]
  rfl

/-- The fields that are to be kept stay, in their order: always for
`unsetunless`, and for `unset` exactly where only the first name matters. -/
theorem rewriteHeaders_eq_filter_iff (cmd : Cmd) (node : List Bytes)
    (headers : List Header) (c : Command)
    (hc : onConfigUnsetCore cmd node = some c)
    (hinterned : ∀ h ∈ headers, h.name = .intern h.name.bytes) :
    rewriteHeaders headers c = some (headers.filter (cmd.keeps node)) ↔
      (cmd = .unset → FirstNames node headers) := by
  obtain rfl := args_of_onConfig hc
  cases cmd with
  | unset =>
    rw [imp_iff_right rfl]
    cases node with
    | nil =>
      cases headers with
      | nil => exact iff_of_true rfl (by simp [FirstNames])
      | cons h headers =>
        exact iff_of_false nofun fun hfirst => by
          simpa using hfirst h mem_cons_self
    | cons src node =>
      simp only [rewriteHeaders, removeHeader, map_cons, removeLoop_all,
        Option.some.injEq, filter_eq_filter_iff, FirstNames]
      refine forall₂_congr fun h hh => ?_
      rw [isArg_intern (hinterned h hh)]
      simp only [Cmd.keeps, head?_cons, Option.mem_some_iff, exists_eq_left',
        map_cons, mem_cons]
      by_cases hfirst : h.name.bytes = configured src <;> simp [hfirst]
  | unsetunless =>
    refine iff_of_true ?_ nofun
    refine congrArg some
      ((removeLoop_all _ _).trans (filter_congr fun h hh => ?_))
    rw [Bool.eq_iff_iff]
    simp [isInList, Cmd.keeps, isArg_intern (hinterned h hh),
      @eq_comm Bytes h.name.bytes]

/-- A field with a name that is no token. -/
def plainField (name : String) : Header := ⟨.buf (ascii name), [], false⟩

/-- The second name is that of no field. -/
theorem rewriteHeaders_unset_first :
    rewriteHeaders [plainField "x-a", plainField "x-b"]
        ⟨.unset, [.buf (ascii "x-a"), .buf (ascii "x-c")]⟩ =
      some [plainField "x-b"] := by
  refine (rewriteHeaders_eq_filter_iff .unset [ascii " X-A", ascii "x-c"] _ _
    (by decide)
    (by decide)).2 fun _ => ?_
  unfold FirstNames
  decide

/-- Of the names of an `unset` only the first one is removed; without a name
the array of arguments is read beyond its end. -/
theorem unset_removes_first_name :
    onConfigUnsetCore .unset [ascii "x-a", ascii "x-b"] =
      some ⟨.unset, [.buf (ascii "x-a"), .buf (ascii "x-b")]⟩ ∧
    rewriteHeaders [plainField "x-a", plainField "x-b"]
      ⟨.unset, [.buf (ascii "x-a"), .buf (ascii "x-b")]⟩ =
        some [plainField "x-b"] ∧
    onConfigUnsetCore .unset [] = some ⟨.unset, []⟩ ∧
    rewriteHeaders [plainField "x-a"] ⟨.unset, []⟩ = none := by
  decide

end H2o.HeadersUtil
