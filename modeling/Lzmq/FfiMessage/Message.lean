/-
  Message objects of the FFI binding (`Message` in `lzmq/ffi.lua`, and `lzmq/ffi/api.lua` under it).

  An object refers to a zmq_msg_t that `ffi.new` has made.  To get a new size, the message is built anew in
  `tmp_msg`, a zmq_msg_t that all objects share; then the object takes this one, and its old one becomes
  `tmp_msg`.  So zmq_msg_t's go around between the objects.

  `ffi.copy` of a string without a length writes its terminating zero as well.  Lua numbers are integers here,
  converted to size_t where they meet one.
-/
import Lzmq.CMessage.Edit

namespace Lzmq.FfiMessage

open Lzmq.Buffer Lzmq.CMessage Lzmq.Messages

/-! ## Objects -/

structure World where
  heap : Heap
  /-- zmq_msg_t's from here on do not exist yet. -/
  next : Nat
  /-- `tmp_msg` -/
  tmp : Nat
  /-- `_private.msg` of the objects. -/
  msgs : List (Option Nat)
  /-- `zmq_errno` -/
  errno : Nat

/-- The module has been loaded. -/
def World.start : World := ⟨Heap.empty, 1, 0, [], 0⟩

/-- What an object refers to; nil when it is closed. -/
def World.struct (w : World) (i : Nat) : Option Nat := w.msgs.getD i none

/-- What libzmq does during a method: the errors of `zmq_msg_init_size`, of `zmq_msg_init` and of the other
    call that is made, what is in a new buffer, the size up to which a message is kept in its zmq_msg_t, and
    the message that `zmq_msg_send` or `zmq_msg_recv` leaves. -/
structure Env where
  alloc : Option Nat
  init : Option Nat
  call : Option Nat
  junk : Nat → UInt8
  limit : Nat
  left : List UInt8 × Bool

/-- What a method returns. -/
inductive Reply
  | message (i : Nat)
  | received (i : Nat) (more : Bool)
  | pass
  | fail (errno : Nat)
deriving DecidableEq, Repr

/-- `return nil, zerror()` -/
def zerror : Lua World Reply := do
  let e ← Lua.read World.errno
  pure (.fail e)

def setErrno (e : Nat) : Lua World Unit := Lua.modify fun w => { w with errno := e }

/-- A call of libzmq that changes messages. -/
def onHeap (f : Heap → Heap) : Lua World Unit := Lua.modify fun w => { w with heap := f w.heap }

/-! ## `api.lua` -/

/-- `ffi.new(zmq_msg_t)` -/
def ffiNew : Lua World Nat := do
  let a ← Lua.read World.next
  Lua.modify fun w => { w with next := a + 1 }
  pure a

/-- `zmq_msg_init` without an argument -/
def zmqMsgInit (env : Env) : Lua World (Option Nat) := do
  let a ← ffiNew
  match env.init with
  | some e => do
    setErrno e
    pure none
  | none => do
    onHeap fun h => h.init a []
    pure (some a)

/-- `zmq_msg_init_size` in a given zmq_msg_t -/
def zmqMsgInitSizeOf (env : Env) (a : Nat) (len : Int) : Lua World (Option Nat) := do
  match env.alloc with
  | some e => do
    setErrno e
    pure none
  | none => do
    onHeap fun h => h.init a (uninit env.junk (sizeT len))
    pure (some a)

/-- `zmq_msg_init_size` -/
def zmqMsgInitSize (env : Env) (msg : Option Nat) (len : Int) : Lua World (Option Nat) := do
  match msg with
  | some a => zmqMsgInitSizeOf env a len
  | none => do
    let a ← ffiNew
    zmqMsgInitSizeOf env a len

/-- `zmq_msg_data`, as the message whose data it points to; libzmq crashes on NULL. -/
def zmqMsgData : Option Nat → Lua World Nat
  | some a => pure a
  | none => fun _ => .abort

/-- `ffi.copy` of a string into a message, without a length. -/
def ffiCopyString (dst : Nat) (pos : Int) (s : List UInt8) : Lua World Unit :=
  onHeap fun h => h.store dst pos (s ++ [0])

/-- `zmq_msg_set_data` -/
def zmqMsgSetData (msg : Option Nat) (s : List UInt8) : Lua World Unit := do
  let dst ← zmqMsgData msg
  ffiCopyString dst 0 s

/-- `zmq_msg_init_string` -/
def zmqMsgInitString (env : Env) (s : LuaString) : Lua World (Option Nat) := do
  let msg ← zmqMsgInitSize env none s.bytes.length
  zmqMsgSetData msg s.bytes
  pure msg

/-- `EFAULT` -/
def efault : Nat := 14

/-- A call of `zmq_msg_move` or `zmq_msg_copy`, which refuse a source that is not a message; whether it
    succeeded. -/
def callMove (env : Env) (f : Heap → Nat → Nat → Heap) (dest src : Nat) : Lua World Bool := do
  let valid ← Lua.read fun w => w.heap.isOpen src
  if valid then
    match env.call with
    | some e => do
      setErrno e
      pure false
    | none => do
      onHeap fun h => f h dest src
      pure true
  else do
    setErrno efault
    pure false

/-- `get_msg_copy` -/
def getMsgCopy (env : Env) (f : Heap → Nat → Nat → Heap) (dest : Nat) (src : Option Nat) :
    Lua World (Option Nat) := do
  match src with
  | some src => do
    if ← callMove env f dest src then pure (some dest) else pure none
  | none => do
    match ← zmqMsgInit env with
    | none => pure none
    | some new => do
      -- what was the destination is the source now
      if ← callMove env f new dest then pure (some new)
      else do
        onHeap fun h => h.close new
        pure none

/-! ## `Message` -/

/-- The string or length `Message:new` gets. -/
inductive Content
  | none
  | len (n : Int)
  | str (s : LuaString)

/-- `Message:wrap` -/
def wrap (a : Nat) : Lua World Reply := do
  let i ← Lua.read fun w => w.msgs.length
  Lua.modify fun w => { w with msgs := w.msgs ++ [some a] }
  pure (.message i)

/-- `if not msg then return nil, zerror() end`, and `Message:wrap` -/
def wrapped : Option Nat → Lua World Reply
  | none => zerror
  | some a => wrap a

def setMsg (i : Nat) (msg : Option Nat) : Lua World Unit :=
  Lua.modify fun w => { w with msgs := w.msgs.set i msg }

def new (env : Env) (content : Content) : Lua World Reply := do
  let msg ← match content with
    | .none => zmqMsgInit env
    | .len n => zmqMsgInitSize env none n
    | .str s => zmqMsgInitString env s
  wrapped msg

def close (i : Nat) : Lua World Reply := do
  match ← Lua.read fun w => w.struct i with
  | none => pure .pass
  | some own => do
    onHeap fun h => h.close own
    setMsg i none
    pure .pass

/-- `assert(not self:closed())`, and `self._private.msg` -/
def checked (i : Nat) : Lua World Nat := do
  match ← Lua.read fun w => w.struct i with
  | none => Lua.raise
  | some own => pure own

/-- The argument of `move` and `copy`: none, nil, a message object, or a zmq_msg_t. -/
inductive Operand
  | none
  | nil
  | message (j : Nat)
  | raw (a : Nat)

def genMove (env : Env) (f : Heap → Nat → Nat → Heap) (i : Nat) (msg : Operand) : Lua World Reply := do
  let own ← checked i
  match msg with
  | .nil => Lua.raise -- assert((...))
  | .none => do
    let new ← getMsgCopy env f own none
    wrapped new
  | .message j => do
    -- a closed operand is nil, as if there were none
    let src ← Lua.read fun w => w.struct j
    match ← getMsgCopy env f own src with
    | none => zerror
    | some _ => pure (.message i)
  | .raw a => do
    match ← getMsgCopy env f own (some a) with
    | none => zerror
    | some _ => pure (.message i)

def move (env : Env) (i : Nat) (msg : Operand) : Lua World Reply := genMove env Heap.move i msg

def copy (env : Env) (i : Nat) (msg : Operand) : Lua World Reply :=
  genMove env (fun h => h.copy env.limit) i msg

/-- `if n > 0 then ffi.copy(…) end`, of the first bytes of a message -/
def copyOld (msg : Option Nat) (own : Nat) (len : Int) : Lua World Unit := do
  if 0 < len then do
    let dst ← zmqMsgData msg
    onHeap fun h => h.transfer dst own (sizeT len)
  else pure ()

/-- The object takes the new zmq_msg_t, and its own one becomes `tmp_msg`. -/
def swap (i own : Nat) (msg : Option Nat) : Lua World Unit := do
  Lua.modify fun w => { w with tmp := own }
  onHeap fun h => h.close own
  setMsg i msg

def setSize (env : Env) (i : Nat) (n : Int) : Lua World Reply := do
  let own ← checked i
  let osize ← Lua.read fun w => w.heap.size own
  if sizeT n = osize then pure .pass
  else do
    let tmp ← Lua.read World.tmp
    let msg ← zmqMsgInitSize env (some tmp) n -- nil when it fails, and not checked
    copyOld msg own (if osize < sizeT n then osize else n)
    swap i own msg
    pure .pass

def setData (env : Env) (i : Nat) (pos : Option Int) (s : LuaString) : Lua World Reply := do
  if 0 < pos.getD 1 then do
    let own ← checked i
    let osize ← Lua.read fun w => w.heap.size own
    if sizeT (pos.getD 1 + s.bytes.length - 1) ≤ osize then do
      onHeap fun h => h.store own (pos.getD 1 - 1) s.bytes
      pure .pass
    else do
      let tmp ← Lua.read World.tmp
      match ← zmqMsgInitSize env (some tmp) (pos.getD 1 + s.bytes.length - 1) with
      | none => zerror
      | some msg => do
        copyOld (some msg) own (if sizeT (pos.getD 1) < osize then pos.getD 1 else osize)
        -- the message ends where the string does, before the zero
        ffiCopyString msg (pos.getD 1 - 1) s.bytes
        swap i own (some msg)
        pure .pass
  else Lua.raise

/-- `zmq_msg_send` and `zmq_msg_recv`, which leave some message in the zmq_msg_t. -/
def transmit (env : Env) (own : Nat) : Lua World Bool := do
  onHeap fun h => h.new own env.left.1 env.left.2
  match env.call with
  | some e => do
    setErrno e
    pure false
  | none => pure true

def send (env : Env) (i : Nat) : Lua World Reply := do
  let own ← checked i
  if ← transmit env own then pure .pass else zerror

def recv (env : Env) (i : Nat) : Lua World Reply := do
  let own ← checked i
  if ← transmit env own then do
    let more ← Lua.read fun w => w.heap.more own
    pure (.received i more)
  else zerror

def size (i : Nat) : Lua World Nat := do
  let own ← checked i
  Lua.read fun w => w.heap.size own

def data (i : Nat) : Lua World (List UInt8) := do
  let own ← checked i
  Lua.read fun w => w.heap.data own

def more (i : Nat) : Lua World Bool := do
  let own ← checked i
  Lua.read fun w => w.heap.more own

/-! ## Steps -/

/-- A call of a method. -/
inductive Op
  | new (content : Content)
  | close (i : Nat)
  | edit (i : Nat) (e : Edit Int)
  | move (i : Nat) (msg : Operand)
  | copy (i : Nat) (msg : Operand)
  | send (i : Nat)
  | recv (i : Nat)

def edit (env : Env) (i : Nat) : Edit Int → Lua World Reply
  | .setData pos s => setData env i pos s
  | .setSize n => setSize env i n

def Op.run (env : Env) : Op → Lua World Reply
  | .new content => FfiMessage.new env content
  | .close i => FfiMessage.close i
  | .edit i e => FfiMessage.edit env i e
  | .move i msg => FfiMessage.move env i msg
  | .copy i msg => FfiMessage.copy env i msg
  | .send i => FfiMessage.send env i
  | .recv i => FfiMessage.recv env i

/-- After a method, also after one that raises an error; none if it crashes. -/
def step (w : World) (c : Op × Env) : Option World := Lua.after (c.1.run c.2) w

end Lzmq.FfiMessage
