import VoltMod.Transition
import VoltMod.Ledger
import VoltMod.DatabaseClient
import VoltMod.StableOrder
import VoltMod.SnapshotPass
import VoltMod.CallbackList
import VoltMod.CallbackListRefinement
import VoltMod.CallbackListOwners
import VoltMod.LowerBound
import VoltMod.CallbackRegistry
import VoltMod.CallbackRegistryRefinement
import VoltMod.LazyHook
import VoltMod.Spread
import VoltMod.Result
import VoltMod.PluginDependencies
import VoltMod.PluginResolution
import VoltMod.PluginLoader
import VoltMod.PluginReload
import VoltMod.ServiceExchange
import VoltMod.SteamIds
import VoltMod.SteamIdSpellings
import VoltMod.Targeting
import VoltMod.TargetSelection
import VoltMod.PlayerManager
import VoltMod.PlayerManagerRuns
import VoltMod.PlayerIndex
import VoltMod.Players
import VoltMod.TargetResolver
import VoltMod.Strip
import VoltMod.Durations
import VoltMod.HttpClient
import VoltMod.HttpClientWorkers
import VoltMod.MenuRouter
import VoltMod.MenuStack
import VoltMod.MenuFlow
import VoltMod.ChatInput
import VoltMod.ClientEvents
import VoltMod.ClientEventsAgreement
import VoltMod.MigrationText
import VoltMod.TransactionStore
import VoltMod.Migrator
import VoltMod.MigratorProgress
import VoltMod.MigratorRuns
import VoltMod.MigratorRace
import VoltMod.DownloadQueue
import VoltMod.Decimals
import VoltMod.AddonList
import VoltMod.ArgBinding
import VoltMod.CommandDispatch
import VoltMod.CommandNames
import VoltMod.CommandRouter
import VoltMod.PublishedInterfaces
import VoltMod.SharedState
import VoltMod.SharedStateOwnership
import VoltMod.SharedStateRuns
import VoltMod.WorkshopDownloads
import VoltMod.PluginHost
import VoltMod.PluginHostRuns
import VoltMod.PluginHostRefinement
import VoltMod.Regex
import VoltMod.Utf8
import VoltMod.MigrationPlaceholders
import VoltMod.PlaceholdersAgreement
import VoltMod.Walk
import VoltMod.SchemaFields
import VoltMod.SchemaClasses
import VoltMod.SchemaViews
import VoltMod.SchemaReplication
import VoltMod.Visibility
import VoltMod.GlowVision
import VoltMod.GlowPrivacy
import VoltMod.PanoramaMenu
import VoltMod.PanoramaMenuRuns
import VoltMod.Rewriting
import VoltMod.RewritingChain
import VoltMod.SubstituteTokens
import VoltMod.StatementSplit
import VoltMod.CommandSyntax
import VoltMod.BytePattern
import VoltMod.SigScanner
import VoltMod.WireFormat
import VoltMod.ButtonPressMessage
import VoltMod.OrderedDict
import VoltMod.PanoramaLayout
import VoltMod.MovementFreeze
import VoltMod.PendingConVarQueries
import VoltMod.ClientConVars
import VoltMod.Vote
import VoltMod.WriteCache
import VoltMod.ScreenEntity
import VoltMod.SchedulerAgreement
import VoltMod.TypeInfoGraph
import VoltMod.CenterHtmlTexts
import VoltMod.CompletionQueue
import VoltMod.MenuCursor
import VoltMod.Patterns
import VoltMod.SchemaChanges
import VoltMod.SqlTables
import VoltMod.DdlLayout
import VoltMod.DdlReading
import VoltMod.DdlRows
import VoltMod.DdlColumns
import VoltMod.DdlTurns
import VoltMod.DdlRuns
import VoltMod.Memo
import VoltMod.ModuleSymbols
import VoltMod.GameDataScanner
import VoltMod.GameDataResolution
import VoltMod.GameDataTable
import VoltMod.GameEvents
import VoltMod.PatternRepair
import VoltMod.Damage
import VoltMod.ClientLanguage
import VoltMod.MenuButtonIds
import VoltMod.Lists
import VoltMod.KeyValues
import VoltMod.EventGen
import VoltMod.ChatPipeline
import VoltMod.Cooldown
import VoltMod.ButtonPresses
import VoltMod.SchemaDump
import VoltMod.SchemaLayout
import VoltMod.ConsoleCommands
import VoltMod.ConVarOverrides
import VoltMod.VtableSearch
import VoltMod.ElfSymbols
import VoltMod.PluginModule
import VoltMod.GameSearchPaths
