import Mathlib.Data.Fintype.Option
import OpenSwoole.Lib.Cycles
import OpenSwoole.Server.StaticHandler

/-!
# Symbolic links under the static file handler

The part of `StaticHandler::hit` behind `check_stat` follows links by a jump back, with the text of the link
as the next name.
-/

namespace OSW
open List Machine

inductive LinkNode where
  | link (target : Bytes)
  | file (kind : FileKind)

/-- files and links, what a name stands for (the last component is not followed), and `realpath` -/
structure LinkFs where
  nodes : List LinkNode
  lookup : Bytes → Option (Fin nodes.length)
  realpath : Bytes → Option Bytes

def LinkFs.lstat (fs : LinkFs) (filename : Bytes) : Option LinkNode := (fs.lookup filename).map fs.nodes.get

section
variable (root : DocumentRoot) (server : StaticServer) (fs : LinkFs) (junk : Nat → UInt8) (url : Bytes)

def missing : Hit := if server.locations.any (strcasect url) then .notFound else .no

end

end OSW
