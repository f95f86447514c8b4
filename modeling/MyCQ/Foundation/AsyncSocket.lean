/-! A stream socket used through asynchronous operations.

An operation is registered together with its completion handler and stays
outstanding until the handler runs. Closing the socket does not remove
outstanding operations: their handlers still run, with an error. The socket
also records what was started on it and which bytes the reads took off it.
-/

set_option autoImplicit false

structure AsyncSocket (R W : Type) where
  isOpen : Bool
  connecting : Bool
  reads : List R
  writes : List W
  readsStarted : List R
  writesStarted : List W
  received : List UInt8
  deriving Repr

namespace AsyncSocket

variable {R W : Type}

def fresh (isOpen : Bool) : AsyncSocket R W := ⟨isOpen, false, [], [], [], [], []⟩

instance : Inhabited (AsyncSocket R W) := ⟨fresh false⟩

def asyncRead (socket : AsyncSocket R W) (op : R) : AsyncSocket R W :=
  { socket with
    reads := socket.reads ++ [op]
    readsStarted := socket.readsStarted ++ [op] }

def asyncWrite (socket : AsyncSocket R W) (op : W) : AsyncSocket R W :=
  { socket with
    writes := socket.writes ++ [op]
    writesStarted := socket.writesStarted ++ [op] }

/-- Connecting opens the socket at once and completes later. -/
def asyncConnect (socket : AsyncSocket R W) : AsyncSocket R W :=
  { socket with isOpen := true, connecting := true }

def finishConnect (socket : AsyncSocket R W) : AsyncSocket R W := { socket with connecting := false }

-- The handlers of outstanding operations still run. One whose operation had
-- completed before reports success, so nothing is removed here.
def close (socket : AsyncSocket R W) : AsyncSocket R W := { socket with isOpen := false }

/-- The handler of a read runs; `bytes` is what the read took off the stream. -/
def finishRead [BEq R] (socket : AsyncSocket R W) (op : R) (bytes : List UInt8) : AsyncSocket R W :=
  { socket with
    reads := socket.reads.erase op
    received := socket.received ++ bytes }

def finishWrite [BEq W] (socket : AsyncSocket R W) (op : W) : AsyncSocket R W :=
  { socket with writes := socket.writes.erase op }

end AsyncSocket
