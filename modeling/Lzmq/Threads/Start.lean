/-
  What `zthreads.run` and `zthreads.fork` start.

  The child that is meant runs the initialisation that the user has chosen, then calls the source with
  P(S(arguments)).  Arguments and preludes come through as meant.  The setting `lua_init = false` does not:
  `thread_opts` passes it through an `or`, which makes it nil, and the child runs the environment's text
  (`start_meant_iff`).
-/
import Lzmq.Threads.Options

namespace Lzmq.Threads

variable {V W : Type} {L : Language V W} {lib : ChildLib V W}

/-! ## The child that is meant -/

section Meant

variable {F : Type}

def Code.threadSource : Code F → Setting F
  | .table o => o.first.or o.source
  | .value v => v

def Code.userPrelude : Code F → Setting F
  | .table o => o.prelude
  | .value _ => .nil

def Code.userInit : Code F → Setting F
  | .table o => o.lua_init
  | .value _ => .nil

variable (L)

/-- An initialisation text is run.  An empty one has nothing to run. -/
def initText (s : Str) : Lua (Child V W) Unit :=
  if s = [] then pure ()
  else do
    note (.init s)
    let (f, _) ← load_src L s
    let _ ← invoke f []

/-- The initialisation that the user has selected. -/
def selectedInit (LUA_INIT : Str) : Setting L.Func → Lua (Child V W) Unit
  | .nil => initText L LUA_INIT
  | .false => pure ()
  | .chunk (.text s) => initText L s
  | .chunk (.func f) => do
    note (.init (L.dump f))
    let _ ← invoke (L.run f) []

/-- P(values) -/
def applyUser (P : Setting L.Func) (vs : List V) : Lua (Child V W) (List V) :=
  match P with
  | .nil => pure vs
  | .false => pure vs
  | .chunk (.func f) => invoke (L.run f) vs
  | .chunk (.text s) => do
    let f ← assertFn (L.loadstring s)
    invoke f vs

/-- The source is called with `vs`, which are also in `arg`, with the source's name in front. -/
def callSource (src : Chunk L.Func) (vs : List V) : Lua (Child V W) (List V) :=
  let call (f : Fn V W) (name : Str) : Lua (Child V W) (List V) := do
    Lua.modify fun s => { s with host := L.setArg ((pack_n L.nil vs).setZero (L.str name)) s.host }
    note (.source (src.dumped L) vs)
    invoke f vs
  match src with
  | .func f => call (L.run f) (bytes "=(loadstring)")
  | .text s => do
    let (f, name) ← load_src L s
    call f name

/-- The child as it is meant to run, with the system prelude `S` and its arguments. -/
def meant (LUA_INIT : Str) (code : Code L.Func) (src : Chunk L.Func) (S : Fn V W) (args : List V) :
    Lua (Child V W) (List V) := do
  selectedInit L LUA_INIT code.userInit
  let vs ← invoke S args
  let vs ← applyUser L code.userPrelude vs
  callSource L src vs

end Meant

/-! ## What the parent hands over -/

/-- The initialisation text that comes out of `thread_opts` and `threads.new`. -/
def initHanded (LUA_INIT : Str) : Setting L.Func → Str
  | .nil => LUA_INIT
  | .false => LUA_INIT
  | .chunk c => c.dumped L

/-- The prelude text. -/
def preludeHanded (f : L.Func) : Setting L.Func → Str
  | .nil => L.dump f
  | .false => L.dump f
  | .chunk c => wrap L.quote (c.dumped L) (L.dump f)

/-- What `thread_opts` makes of a source with settings. -/
theorem thread_opts_eq (f : L.Func) {code : Code L.Func} {src : Chunk L.Func}
    (hsrc : code.threadSource = .chunk src) :
    thread_opts L code (starter L f) = .ok
      { first := .nil
        source := .chunk src
        lua_init := code.userInit.or .nil
        prelude := .chunk (.text (preludeHanded f code.userPrelude)) } := by
  cases code with
  | value v =>
    obtain rfl : v = .chunk src := hsrc
    rfl
  | table o =>
    show thread_opts L (.table o) (starter L f) = .ok
      { first := .nil, source := .chunk src, lua_init := o.lua_init.or .nil
        prelude := .chunk (.text (preludeHanded f o.prelude)) }
    rw [thread_opts, show o.first.or o.source = .chunk src from hsrc]
    cases o.prelude with
    | nil => rfl
    | false => rfl
    | chunk c => rfl

/-- The `or` in `thread_opts` comes first, and then the one in `threads.new`. -/
theorem dumped_init (text : Str) (init : Setting L.Func) :
    Setting.dumped L (match init.or .nil with
      | .nil => .chunk (.text text)
      | init => init) = some (initHanded text init) := by
  cases init with
  | nil => rfl
  | false => rfl
  | chunk c => rfl

theorem startWith_eq (p : Parent V) (f : L.Func) {code : Code L.Func} {src : Chunk L.Func}
    (hsrc : code.threadSource = .chunk src) (args : List V) :
    startWith L p f code args = .ok
      { lua_init := some (initHanded p.LUA_INIT code.userInit)
        prelude := some (preludeHanded f code.userPrelude)
        code := some (src.dumped L)
        args := args } := by
  rw [startWith, thread_opts_eq f hsrc, ← dumped_init]
  rfl

/-! ## What the child makes of it -/

theorem load_dump (f : L.Func) (s : Child V W) :
    load_src L (L.dump f) s = .ret (L.run f, bytes "=(loadstring)") s := by
  have hhead : ¬ (L.dump f).take 1 = bytes "@" := by
    rw [L.dump_head f]
    decide +kernel
  rw [load_src, if_neg hhead, L.loadstring_dump]
  rfl

theorem wrap_head (quote : Str → Str) (p s : Str) : (wrap quote p s).take 1 = [32] := by
  have hpos : 1 ≤ wrapStart.length := by decide +kernel
  rw [wrap, List.take_append_of_le_length hpos]
  decide +kernel

theorem load_wrap (p q : Str) (s : Child V W) :
    load_src L (wrap L.quote p q) s =
      .ret (composed (L.loadstring p) (L.loadstring q), bytes "=(loadstring)") s := by
  have hhead : ¬ (wrap L.quote p q).take 1 = bytes "@" := by
    rw [wrap_head]
    decide +kernel
  rw [load_src, if_neg hhead, L.loadstring_wrap]
  rfl

theorem given_of_take {x : Str} {b : UInt8} (h : x.take 1 = [b]) : given (some x) = some x := by
  cases x with
  | nil => cases h
  | cons c cs => rfl

/-- The text that is handed over runs as the one that is meant. -/
theorem runInit_text (x : Str) (s : Child V W) : runInit L (some x) s = initText L x s := by
  cases x with
  | nil => rfl
  | cons c cs => rfl

theorem runInit_chunk (LUA_INIT : Str) (c : Chunk L.Func) (s : Child V W) :
    runInit L (some (c.dumped L)) s = selectedInit L LUA_INIT (.chunk c) s := by
  cases c with
  | text x => exact runInit_text x s
  | func f =>
    show runInit L (some (L.dump f)) s = _
    rw [runInit, given_of_take (L.dump_head f)]
    simp only [Lua.run_bind]
    rw [selectedInit]
    simp only [note, Lua.run_bind, Lua.run_modify, Lua.andThen_ret, load_dump]

/-- P(S(arguments)) -/
def preludes (S : Fn V W) (P : Setting L.Func) (args : List V) : Lua (Child V W) (List V) := do
  let vs ← invoke S args
  applyUser L P vs

theorem invoke_composed (p : Option (Fn V W)) (S : Fn V W) (args : List V) (s : Child V W) :
    invoke (composed p (some S)) args s =
      Lua.andThen (invoke S args s) fun vs => assertFn p >>= fun f => invoke f vs := by
  rw [invoke, invoke, composed]
  cases hS : S args s.host with
  | mk r w =>
    cases r with
    | error e => rfl
    | ok vs =>
      cases p with
      | none => rfl
      | some p => rfl

/-- **The preludes compose**: the child's table holds the values P(S(arguments)), and their number. -/
theorem runPrelude_eq (f : L.Func) (P : Setting L.Func) (args : List V) (s : Child V W) :
    runPrelude L (some (preludeHanded f P)) args s =
      Lua.andThen (preludes (L.run f) P args s) fun vs => pure (pack_n L.nil vs) := by
  have hplain : runPrelude L (some (L.dump f)) args s =
      Lua.andThen (invoke (L.run f) args s) fun vs => pure (pack_n L.nil vs) := by
    rw [runPrelude, given_of_take (L.dump_head f)]
    simp only [Lua.run_bind, load_dump, Lua.andThen_ret]
  have hwrapped (c : Chunk L.Func) : runPrelude L (some (wrap L.quote (c.dumped L) (L.dump f))) args s =
      Lua.andThen (preludes (L.run f) (.chunk c) args s) fun vs => pure (pack_n L.nil vs) := by
    rw [runPrelude, given_of_take (wrap_head _ _ _)]
    simp only [Lua.run_bind, load_wrap, L.loadstring_dump, Lua.andThen_ret, invoke_composed, preludes]
    cases c with
    | text x => rfl
    | func g =>
      simp only [Chunk.dumped, L.loadstring_dump]
      rfl
  cases P with
  | nil =>
    rw [preludeHanded, hplain, preludes, Lua.run_bind, Lua.andThen_andThen]
    rfl
  | false =>
    rw [preludeHanded, hplain, preludes, Lua.run_bind, Lua.andThen_andThen]
    rfl
  | chunk c => exact hwrapped c

/-- **The source is called** with the values that were packed. -/
theorem runCode_pack (src : Chunk L.Func) (vs : List V) (s : Child V W) :
    runCode L (some (src.dumped L)) (pack_n L.nil vs) s = callSource L src vs s := by
  cases src with
  | text x =>
    simp only [runCode, assertText, callSource, Lua.run_bind, Lua.run_pure, Lua.andThen_ret, unpack_pack]
    rfl
  | func f =>
    simp only [runCode, assertText, callSource, Lua.run_bind, Lua.run_pure, Lua.andThen_ret, unpack_pack]
    show Lua.andThen (load_src L (L.dump f) s) _ = _
    rw [load_dump]
    rfl

/-- The rest of the child, after its initialisation. -/
def rest (code : Code L.Func) (src : Chunk L.Func) (S : Fn V W) (args : List V) :
    Lua (Child V W) (List V) := do
  let vs ← preludes S code.userPrelude args
  callSource L src vs

theorem meant_eq (LUA_INIT : Str) (code : Code L.Func) (src : Chunk L.Func) (S : Fn V W) (args : List V)
    (s : Child V W) : meant L LUA_INIT code src S args s =
      Lua.andThen (selectedInit L LUA_INIT code.userInit s) fun _ => rest code src S args := by
  refine congrArg (Lua.andThen _) (funext fun _ => funext fun t => ?_)
  show _ = Lua.andThen (Lua.andThen (invoke S args t) _) _
  rw [Lua.andThen_andThen]
  rfl

theorem bootstrap_eq (LUA_INIT : Str) (code : Code L.Func) (src : Chunk L.Func) (f : L.Func) (args : List V)
    (s : Child V W) :
    bootstrap L ⟨some (initHanded LUA_INIT code.userInit), some (preludeHanded f code.userPrelude),
        some (src.dumped L), args⟩ s =
      Lua.andThen (runInit L (some (initHanded LUA_INIT code.userInit)) s) fun _ =>
        rest code src (L.run f) args := by
  refine congrArg (Lua.andThen _) (funext fun _ => funext fun t => ?_)
  show Lua.andThen (runPrelude L _ args t) _ = Lua.andThen (preludes _ _ args t) _
  rw [runPrelude_eq, Lua.andThen_andThen]
  refine congrArg (Lua.andThen _) (funext fun vs => funext fun u => ?_)
  exact runCode_pack src vs u

/-! ## The log of initialisations -/

def Event.isInit : Event V → Bool
  | .init _ => true
  | .source _ _ => false

/-- How many initialisations there have been in the end. -/
def inits {α : Type} : Ending (Child V W) α → Option Nat
  | .ret _ s => some (s.log.countP Event.isInit)
  | .raise s => some (s.log.countP Event.isInit)
  | .abort => none

/-- Code that initialises nothing. -/
def Quiet {α : Type} (x : Lua (Child V W) α) : Prop :=
  ∀ s, inits (x s) = some (s.log.countP Event.isInit)

section Quiet

variable {α β : Type}

theorem inits_andThen {r : Ending (Child V W) α} {f : α → Lua (Child V W) β} (hf : ∀ a, Quiet (f a)) :
    inits (Lua.andThen r f) = inits r := by
  cases r with
  | ret a s => exact hf a s
  | raise s => rfl
  | abort => rfl

theorem Quiet.pure (a : α) : Quiet (V := V) (W := W) (pure a) := fun _ => rfl

theorem Quiet.raise : Quiet (V := V) (W := W) (Lua.raise : Lua _ α) := fun _ => rfl

theorem Quiet.bind {x : Lua (Child V W) α} {f : α → Lua (Child V W) β} (hx : Quiet x)
    (hf : ∀ a, Quiet (f a)) : Quiet (x >>= f) :=
  fun s => (inits_andThen hf).trans (hx s)

theorem Quiet.modify {g : Child V W → Child V W} (hg : ∀ s, (g s).log = s.log) : Quiet (Lua.modify g) :=
  fun s => congrArg (fun l : List (Event V) => some (l.countP Event.isInit)) (hg s)

theorem Quiet.source (text : Str) (vs : List V) : Quiet (W := W) (note (.source text vs)) := by
  intro s
  show some ((s.log ++ [Event.source text vs]).countP Event.isInit) = _
  rw [List.countP_append]
  rfl

theorem Quiet.invoke (f : Fn V W) (args : List V) : Quiet (invoke f args) := by
  intro s
  rw [Threads.invoke]
  cases hf : f args s.host with
  | mk r w =>
    cases r with
    | error e => rfl
    | ok vs => rfl

theorem Quiet.assertFn (f : Option (Fn V W)) : Quiet (assertFn f) := by
  cases f with
  | none => exact Quiet.raise
  | some f => exact Quiet.pure f

theorem Quiet.load_src (str : Str) : Quiet (load_src L str) := by
  rw [Threads.load_src]
  split
  · exact Quiet.bind (fun _ => rfl) fun w => Quiet.bind (Quiet.assertFn _) fun f => Quiet.pure _
  · exact Quiet.bind (Quiet.assertFn _) fun f => Quiet.pure _

theorem Quiet.applyUser (P : Setting L.Func) (vs : List V) : Quiet (applyUser L P vs) := by
  cases P with
  | nil => exact Quiet.pure vs
  | false => exact Quiet.pure vs
  | chunk c =>
    cases c with
    | func f => exact Quiet.invoke _ vs
    | text s => exact Quiet.bind (Quiet.assertFn _) fun f => Quiet.invoke f vs

theorem Quiet.callSource (src : Chunk L.Func) (vs : List V) : Quiet (callSource L src vs) := by
  have hcall (f : Fn V W) (name : Str) : Quiet (do
      Lua.modify fun s => { s with host := L.setArg ((pack_n L.nil vs).setZero (L.str name)) s.host }
      note (.source (src.dumped L) vs)
      Threads.invoke f vs) :=
    Quiet.bind (Quiet.modify fun _ => rfl) fun _ => Quiet.bind (Quiet.source _ vs) fun _ => Quiet.invoke f vs
  cases src with
  | func f => exact hcall _ _
  | text s => exact Quiet.bind (Quiet.load_src s) fun r => hcall _ _

theorem Quiet.rest (code : Code L.Func) (src : Chunk L.Func) (S : Fn V W) (args : List V) :
    Quiet (rest code src S args) :=
  Quiet.bind (Quiet.bind (Quiet.invoke S args) fun vs => Quiet.applyUser _ vs) fun vs => Quiet.callSource src vs

/-- An initialisation text that is not empty leaves its mark, also when it fails. -/
theorem inits_initText {x : Str} (hx : x ≠ []) (s : Child V W) :
    inits (initText L x s) = some (s.log.countP Event.isInit + 1) := by
  rw [initText, if_neg hx]
  have hquiet : Quiet (do
      let (f, _) ← Threads.load_src L x
      let _ ← Threads.invoke f []) :=
    Quiet.bind (Quiet.load_src x) fun r => Quiet.bind (Quiet.invoke r.1 []) fun _ => Quiet.pure ()
  refine (hquiet { s with log := s.log ++ [.init x] }).trans ?_
  rw [List.countP_append]
  rfl

end Quiet

/-! ## A small language -/

/-- The values of the example. -/
inductive Value
  | nil
  | str (s : Str)
  | ptr (address : Nat)
  | pipe (endpoint : Value)
deriving DecidableEq, Repr

def smallLib : ChildLib Value Unit where
  require _ := fun w => (.ok (), w)
  submodule v := match v with
    | .str s => .str (s ++ bytes ".threads")
    | v => v
  truthy v := v ≠ .nil
  init_ctx v := fun w => (.ok v, w)
  set_context _ := fun w => (.ok (), w)
  pair _ endpoint := fun w => (.ok (.pipe endpoint), w)

/-- The bytes 1 and 2 stand for the two system preludes; every other byte does nothing. -/
def byteRun (b : UInt8) : Fn Value Unit :=
  if b = 1 then runBody .nil smallLib
  else if b = 2 then forkBody .nil smallLib
  else fun vs w => (.ok vs, w)

/-- A text runs from its last byte to its first one. -/
def textRun (s : Str) : Fn Value Unit :=
  s.foldr (fun b f => composed (some (byteRun b)) (some f)) fun vs w => (.ok vs, w)

theorem textRun_cons (b : UInt8) (s : Str) : textRun (b :: s) = composed (some (byteRun b)) (some (textRun s)) := rfl

theorem composed_id (f : Fn Value Unit) : composed (some fun vs w => (.ok vs, w)) (some f) = f := by
  funext args w
  rw [composed]
  cases f args w with
  | mk r w =>
    cases r with
    | error e => rfl
    | ok vs => rfl

theorem composed_id_right (f : Fn Value Unit) : composed (some f) (some fun vs w => (.ok vs, w)) = f := rfl

theorem textRun_append (a b : Str) : textRun (a ++ b) = composed (some (textRun a)) (some (textRun b)) := by
  induction a with
  | nil => exact (composed_id _).symm
  | cons c a ih =>
    rw [List.cons_append, textRun_cons, textRun_cons, ih]
    funext args w
    simp only [composed]
    cases textRun b args w with
    | mk r w =>
      cases r with
      | error e => rfl
      | ok vs => rfl

/-- Text without the two bytes passes its arguments on. -/
theorem textRun_plain {s : Str} (h : ∀ b ∈ s, b ≠ 1 ∧ b ≠ 2) : textRun s = fun vs w => (.ok vs, w) := by
  induction s with
  | nil => rfl
  | cons b s ih =>
    have hb := h b (List.mem_cons_self ..)
    rw [textRun_cons, ih fun c hc => h c (List.mem_cons_of_mem b hc), byteRun, if_neg hb.1, if_neg hb.2,
      composed_id]

def small : Language Value Unit where
  Func := Str
  run := textRun
  dump f := 27 :: f
  loadstring s := some (textRun s)
  loadfile _ _ := none
  quote s := s
  nil := .nil
  str := .str
  setArg _ w := w
  dump_head _ := rfl
  loadstring_dump f := by
    rw [textRun_cons, show byteRun 27 = fun vs w => (.ok vs, w) from rfl, composed_id]
  loadstring_wrap p s := by
    have hstart : textRun wrapStart = fun vs w => (.ok vs, w) := textRun_plain (by decide +kernel)
    have hmiddle : textRun wrapMiddle = fun vs w => (.ok vs, w) := textRun_plain (by decide +kernel)
    have hend : textRun wrapEnd = fun vs w => (.ok vs, w) := textRun_plain (by decide +kernel)
    rw [wrap, textRun_append, textRun_append, textRun_append, textRun_append, hstart, hmiddle, hend,
      composed_id, composed_id, composed_id_right]

def smallStarters : Starters small smallLib where
  run := [1]
  fork := [2]
  run_run := composed_id_right _
  run_fork := composed_id_right _

/-- Lua 5.1 with `LUA_INIT=--` -/
def smallParent : Parent Value where
  ZMQ_NAME := .str (bytes "lzmq")
  luaMajor := 5
  luaMinor := 1
  getenv name := if name = "LUA_INIT" then some (bytes "--") else none

/-- `{"return ...", prelude = "return ...", lua_init = lua_init}` -/
def smallCode (lua_init : Setting small.Func) : Code small.Func :=
  .table
    { first := .chunk (.text (bytes "return ...")), source := .nil
      prelude := .chunk (.text (bytes "return ...")), lua_init }

/-! ## The result -/

/-- **A child that is started with the system prelude `f`** runs as meant iff its initialisation is the one
that was selected. -/
theorem startWith_meant_iff (p : Parent V) (f : L.Func) {code : Code L.Func} {src : Chunk L.Func}
    (hsrc : code.threadSource = .chunk src) (args : List V) :
    ∃ t, startWith L p f code args = .ok t ∧ ∀ w,
      (t.start L w = meant L p.LUA_INIT code src (L.run f) args ⟨[], w⟩ ↔
        (code.userInit = .false → p.LUA_INIT = [])) := by
  refine ⟨_, startWith_eq p f hsrc args, fun w => ?_⟩
  rw [Thread.start, bootstrap_eq, meant_eq]
  cases hinit : code.userInit with
  | nil =>
    rw [initHanded, runInit_text]
    exact iff_of_true rfl (fun h => nomatch h)
  | chunk c =>
    rw [initHanded, runInit_chunk p.LUA_INIT]
    exact iff_of_true rfl (fun h => nomatch h)
  | false =>
    rw [initHanded, runInit_text]
    constructor
    · intro heq _
      by_cases henv : p.LUA_INIT = []
      · exact henv
      have hchild : inits (Lua.andThen (initText L p.LUA_INIT ⟨[], w⟩)
          fun _ => rest code src (L.run f) args) = some 1 :=
        (inits_andThen fun _ => Quiet.rest _ _ _ _).trans (inits_initText henv _)
      have hmeant : inits (rest code src (L.run f) args ⟨[], w⟩) = some 0 := Quiet.rest _ _ _ _ _
      rw [heq] at hchild
      exact absurd (hchild.symm.trans hmeant) (by decide)
    · intro henv
      rw [henv rfl]
      rfl

/-- **What `zthreads.run` and `zthreads.fork` start** runs as meant, whatever its source, its preludes and its
arguments are, iff `lua_init = false` does not meet an initialisation in the environment. -/
theorem start_meant_iff (S : Starters L lib) (p : Parent V) {code : Code L.Func} {src : Chunk L.Func}
    (hsrc : code.threadSource = .chunk src) (ctx : V) (args : List V) :
    (∃ t, zthreads_run S p ctx code args = .ok t ∧ ∀ w,
      (t.start L w = meant L p.LUA_INIT code src (runBody L.nil lib) (p.ZMQ_NAME :: ctx :: args) ⟨[], w⟩ ↔
        (code.userInit = .false → p.LUA_INIT = []))) ∧
    ∀ endpoint, ∃ t, zthreads_fork S p (some endpoint) ctx code args = .ok (some t) ∧ ∀ w,
      (t.start L w = meant L p.LUA_INIT code src (forkBody L.nil lib)
          (p.ZMQ_NAME :: ctx :: endpoint :: args) ⟨[], w⟩ ↔
        (code.userInit = .false → p.LUA_INIT = [])) := by
  constructor
  · rw [← S.run_run]
    exact startWith_meant_iff p S.run hsrc _
  · intro endpoint
    rw [← S.run_fork]
    obtain ⟨t, ht, hmeant⟩ := startWith_meant_iff p S.fork hsrc (p.ZMQ_NAME :: ctx :: endpoint :: args)
    refine ⟨t, ?_, hmeant⟩
    rw [zthreads_fork, ht]
    rfl

/-- Nil arguments and preludes of both kinds come through. -/
theorem start_meant_small :
    ∃ t, zthreads_run smallStarters smallParent (.ptr 1) (smallCode .nil) [.nil, .ptr 2, .nil] = .ok t ∧
      t.start small () = meant small (bytes "--") (smallCode .nil) (.text (bytes "return ..."))
        (runBody .nil smallLib) [.str (bytes "lzmq"), .ptr 1, .nil, .ptr 2, .nil] ⟨[], ()⟩ := by
  obtain ⟨⟨t, ht, hmeant⟩, -⟩ :=
    start_meant_iff smallStarters smallParent (show (smallCode .nil).threadSource = _ from rfl) (.ptr 1)
      [.nil, .ptr 2, .nil]
  exact ⟨t, ht, (hmeant ()).mpr fun h => nomatch h⟩

/-- **`lua_init = false` runs LUA_INIT**: the child has an initialisation, the one that is meant has none. -/
theorem false_runs_LUA_INIT :
    ∃ t, zthreads_run smallStarters smallParent (.ptr 1) (smallCode .false) [] = .ok t ∧
      inits (t.start small ()) = some 1 ∧
      t.start small () ≠ meant small (bytes "--") (smallCode .false) (.text (bytes "return ..."))
        (runBody .nil smallLib) [.str (bytes "lzmq"), .ptr 1] ⟨[], ()⟩ := by
  refine ⟨_, startWith_eq smallParent smallStarters.run (show (smallCode .false).threadSource = _ from rfl)
    [.str (bytes "lzmq"), .ptr 1], by decide +kernel, fun heq => ?_⟩
  have hinits := congrArg inits heq
  exact absurd hinits (by decide +kernel)

end Lzmq.Threads
