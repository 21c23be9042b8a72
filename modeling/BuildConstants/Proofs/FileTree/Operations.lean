import BuildConstants.FileTree

/-!
# Operations on a tree

What the operations of a file system do when the file system is a tree: looking at the tree leaves
it as it is, and a change that fails does so, too.
-/

namespace BuildConstants.FileTree

variable {tree : FileTree} {path : Path} {text : String}

theorem run_bind {α β : Type} (action : StateM FileTree α) (next : α → StateM FileTree β)
    (tree : FileTree) :
    (action >>= next).run tree = (next (action.run tree).1).run (action.run tree).2 := rfl

theorem run_isFile :
    (Files.isFile path : StateM FileTree Bool).run tree = (tree.isFile path, tree) := rfl

theorem run_isDirectory :
    (Files.isDirectory path : StateM FileTree Bool).run tree = (tree.isDirectory path, tree) := rfl

theorem run_readText :
    (Files.readText path : StateM FileTree _).run tree = (tree.readText path, tree) := rfl

theorem run_names :
    (Files.names path : StateM FileTree _).run tree = (tree.names path, tree) := rfl

/-- What an operation that changes a tree does. -/
theorem run_change (step : FileTree → Except FileError FileTree) :
    (change step).run tree =
      match step tree with
      | .ok changed => (.ok (), changed)
      | .error error => (.error error, tree) := rfl

theorem run_makeDirectory :
    (Files.makeDirectory path : StateM FileTree _).run tree =
      (change (·.makeDirectory path)).run tree := rfl

theorem run_writeText :
    (Files.writeText path text : StateM FileTree _).run tree =
      (change (·.write path (.text text))).run tree := rfl

end BuildConstants.FileTree
