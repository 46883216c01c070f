import RLCM.Py.Error
import RLCM.Py.Dict
import RLCM.Py.Num
import RLCM.Py.Str
import RLCM.Lib.Blocks
import RLCM.Lib.Stats
import RLCM.Lib.Row
import RLCM.PPO.CoreAlgos
import RLCM.ForcedOutput.Budget
import RLCM.ForcedOutput.AgentLoop
import RLCM.ForcedOutput.ForcedPrompt
import RLCM.ForcedOutput.Rewards
import RLCM.ForcedOutput.Trainer
import RLCM.ForcedOutput.RewardReference
import RLCM.ForcedOutput.Probe
import RLCM.ForcedOutput.ProbeBatch
import RLCM.ForcedOutput.ProbePairs
import RLCM.ForcedOutput.CornerFilter
import RLCM.ForcedOutput.Fit
import RLCM.ForcedOutput.Placement
import RLCM.ForcedOutput.FitFilter
import RLCM.ForcedOutput.FitLabels
import RLCM.PPO.PolicyLoss
import RLCM.Actor.DataProto
import RLCM.Actor.UpdatePolicy
import RLCM.Eval.Boxed
import RLCM.Eval.Metrics
import RLCM.Eval.BudgetEval
import RLCM.Eval.Evaluate
import RLCM.Eval.EvaluateRuns
import RLCM.Eval.NaturalEval
import RLCM.ForcedOutput.FitPlacement
import RLCM.ForcedOutput.SolvedMetrics
import RLCM.ForcedOutput.GroupStats
import RLCM.ForcedOutput.AnyCorrect
import RLCM.ForcedOutput.BudgetLists
import RLCM.ForcedOutput.Validation
import RLCM.ForcedOutput.ValidationRuns
import RLCM.ForcedOutput.ValidationAligned
import RLCM.Lib.Scatter
import RLCM.Eval.HiddenStates
import RLCM.Eval.FinalConfidence
import RLCM.Lib.Grouping
import RLCM.Eval.EceLaws
import RLCM.Lib.Pattern
import RLCM.Py.Float
import RLCM.RewardScore.MathDapo
import RLCM.Py.Int
import RLCM.Eval.MathDapo
import RLCM.Eval.LastBox
import RLCM.RewardScore.Rlcr
import RLCM.RewardScore.PlainText
import RLCM.RewardScore.BlankAnswers
import RLCM.RewardScore.Numerals
import RLCM.RewardScore.Integers
import RLCM.PPO.Checkpoint
import RLCM.ForcedOutput.ProbeCheckpoint
import RLCM.ForcedOutput.ResumeSafety
import RLCM.ForcedOutput.ResumeProbe
import RLCM.Lib.Rebuild
import RLCM.Eval.StageTasks
import RLCM.Eval.Freshness
import RLCM.Lib.Delimited
import RLCM.RewardScore.BoxedExact
import RLCM.RewardScore.LastTags
import RLCM.Lib.Scoring
import RLCM.RewardScore.ProperScore
import RLCM.RewardScore.ConfidenceLiterals
import RLCM.PPO.C2gspgLaws
import RLCM.ForcedOutput.ConfDiffLaws
import RLCM.ForcedOutput.TrainedTokens
import RLCM.Py.FloatText
import RLCM.Eval.TaskAnswers
import RLCM.Lib.Routing
import RLCM.Eval.BudgetScores
import RLCM.Eval.BudgetRun
import RLCM.Eval.BudgetConservation
import RLCM.Eval.RlcrScores
import RLCM.Eval.RlcrConsistent
import RLCM.Eval.RlcrTwins
import RLCM.Lib.GreedyCut
import RLCM.Lib.Reindex
import RLCM.Eval.DynamicBatches
import RLCM.Actor.ComputeLogProb
import RLCM.Lib.FirstMin
import RLCM.Lib.BatchMeans
import RLCM.Eval.ProbeTraining
import RLCM.Eval.ProbeSplit
import RLCM.Eval.ProbeSelection
import RLCM.Eval.ProbeValLoss
import RLCM.Py.Nearest
import RLCM.Eval.SaraRounding
import RLCM.Eval.DryRun
import RLCM.Eval.ResultsTable
import RLCM.ForcedOutput.BudgetFeatures
import RLCM.Lib.Averaging
import RLCM.ForcedOutput.RewardMonotone
import RLCM.Py.Heapq
import RLCM.Lib.Differencing
import RLCM.Lib.Sharding
import RLCM.Protocol.Rows
import RLCM.Protocol.Dispatch
import RLCM.Protocol.AutoPadding
import RLCM.Lib.Lru
import RLCM.Lib.WhileLoop
import RLCM.AgentLoop.ServerManager
import RLCM.AgentLoop.ToolAgent
import RLCM.AgentLoop.ToolAgentRuns
import RLCM.AgentLoop.ConversationLaws
import RLCM.Balancing.Partitions
import RLCM.Balancing.PartitionLaws
import RLCM.Balancing.Greedy
import RLCM.Balancing.MicroBatches
import RLCM.Balancing.BalanceBatch
import RLCM.Balancing.KeepMinibatch
import RLCM.Balancing.PrefixGroups
import RLCM.PPO.Reordering
import RLCM.Lib.Masking
import RLCM.PPO.TokenAdvantages
import RLCM.Lib.Buckets
import RLCM.PPO.Vectorized
import RLCM.Lib.PartMeans
import RLCM.Actor.GradientAccumulation
