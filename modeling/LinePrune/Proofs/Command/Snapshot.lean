import LinePrune.Proofs.Command.Run
import LinePrune.Proofs.Config.RoundTrip
import LinePrune.Proofs.FileTree.Creation

namespace LinePrune

namespace Command

end Command

namespace Request

end Request

namespace FileTree

section Resolving

variable {before after : FileTree} {location : Location} {bytes : ByteArray} {path : RawText}
  {text : String} {options : Options} {config : Config}

end Resolving

end FileTree

end LinePrune
